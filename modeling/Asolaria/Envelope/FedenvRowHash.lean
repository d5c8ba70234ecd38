import Asolaria.Envelope.FedenvRules

namespace Asolaria.Envelope.Fedenv
open Library

namespace FedenvView

/-- The four fields that a row hash covers, joined as they are hashed. -/
def text (env : FedenvView) (ts : String) : String := env.callerPid ++ env.verb ++ env.payload ++ ts

end FedenvView

/-- The first eight bytes of SHA-256 do not collide on what is hashed for the
two envelopes. -/
def CollisionFree (env : FedenvView) (ts : String) (env' : FedenvView) (ts' : String) : Prop :=
  (Sha256.digest (env.hashed ts)).toList.take 8 = (Sha256.digest (env'.hashed ts')).toList.take 8 →
    env.hashed ts = env'.hashed ts'

variable {env env' : FedenvView} {ts ts' callerPid verb payload : String}

end Asolaria.Envelope.Fedenv
