import Asolaria.Crypto.Signing
import Asolaria.Library.Search
import Asolaria.Library.Utf8

namespace Asolaria.SignGate
open Library Crypto

def defaultDenies : List String := ["HD-virus", "drift", "malformed-PID", "unknown-cube", "off-fabric"]

structure GateVerdict where
  admitted : Bool
  reason : String
  sigValid : Bool
  denyClean : Bool
  allowRescued : Bool
deriving DecidableEq, Repr

inductive SignGateErr
  | envelopeEmpty
  | unsupportedAlg
  | sigMissing
  | ownerMissing
deriving DecidableEq, Repr

def verifyEnvelopeSignature (canonicalBytes : List UInt8) (sig : Signature) (ownerPubKey : PublicKey) (alg : String) :
    Except SignGateErr Unit :=
  if canonicalBytes.isEmpty then .error .envelopeEmpty
  else if alg ≠ "ed25519" then .error .unsupportedAlg
  else
    match verify canonicalBytes sig ownerPubKey with
    | .ok () => .ok ()
    | .error .signatureInvalid => .error .sigMissing
    | .error _ => .error .sigMissing

/-- Whether all tags are clean. -/
def denyCheck (hookwallEventTags denies : List String) : Bool :=
  hookwallEventTags.all fun tag => denies.all fun deny => !contains deny.toList tag.toList

/-- One of the bytes of `A-Z`, `0-9` and `_`. -/
def isNameByte (b : UInt8) : Bool := (65 ≤ b && b ≤ 90) || (48 ≤ b && b ≤ 57) || b == 95

def task39EnvvarVirusAllow (envvarName : String) : Bool :=
  match utf8 envvarName with
  | [] => false
  | first :: rest =>
    if !(65 ≤ first && first ≤ 90) then false
    else if !(first :: rest).all isNameByte then false
    else contains "VIRUS".toList envvarName.toList

def gateEnvelope (canonicalBytes : List UInt8) (sig : Signature) (ownerPubKey : PublicKey) (alg : String)
    (hookwallEventTags envvarNames : List String) : GateVerdict :=
  let sigValid := (verifyEnvelopeSignature canonicalBytes sig ownerPubKey alg).isOk
  let denyClean := denyCheck hookwallEventTags defaultDenies
  let allowRescued := !denyClean && envvarNames.any task39EnvvarVirusAllow
  let admitted := sigValid && (denyClean || allowRescued)
  let reason :=
    if !sigValid then "signature-invalid"
    else if !denyClean && !allowRescued then "deny-tag-matched-no-allow-rescue"
    else if allowRescued then "deny-tag-matched-but-allow-rescued"
    else "admitted-clean"
  { admitted, reason, sigValid, denyClean, allowRescued }

/-- Some tag contains a denied term. -/
def Denied (hookwallEventTags : List String) : Prop :=
  ∃ tag ∈ hookwallEventTags, ∃ deny ∈ defaultDenies, deny.toList <:+: tag.toList

instance (hookwallEventTags : List String) : Decidable (Denied hookwallEventTags) :=
  inferInstanceAs (Decidable (∃ tag ∈ hookwallEventTags, ∃ deny ∈ defaultDenies, deny.toList <:+: tag.toList))

theorem denyCheck_eq_false_iff {tags : List String} : denyCheck tags defaultDenies = false ↔ Denied tags := by
  simp [denyCheck, Denied, contains_iff]

section Envelope
variable {canonicalBytes : List UInt8} {sig : Signature} {ownerPubKey : PublicKey} {alg : String}
  {tags : List String}

/-- A denied envelope with a good signature hangs on its names. -/
theorem gateEnvelope_denied (signed : verifyEnvelopeSignature canonicalBytes sig ownerPubKey alg = .ok ())
    (denied : Denied tags) (names : List String) :
    (gateEnvelope canonicalBytes sig ownerPubKey alg tags names).allowRescued = names.any task39EnvvarVirusAllow ∧
      (gateEnvelope canonicalBytes sig ownerPubKey alg tags names).admitted = names.any task39EnvvarVirusAllow := by
  simp [gateEnvelope, signed, denyCheck_eq_false_iff.mpr denied, Except.isOk, Except.toBool]

theorem verifyEnvelopeSignature_expected (filled : canonicalBytes ≠ []) :
    verifyEnvelopeSignature canonicalBytes ⟨expectedSigBytes ownerPubKey canonicalBytes⟩ ownerPubKey "ed25519" =
      .ok () := by
  have verified : verify canonicalBytes ⟨expectedSigBytes ownerPubKey canonicalBytes⟩ ownerPubKey = .ok () :=
    if_pos (ctEq_iff.mpr rfl)
  simp [verifyEnvelopeSignature, filled, verified]

end Envelope

end Asolaria.SignGate
