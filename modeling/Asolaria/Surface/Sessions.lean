import Asolaria.Library.Interleaving
import Asolaria.Library.Tickets

namespace Asolaria.Surface
open Library

/-- A session with the bytes that its shell was given. There is no stdin and
no child where the shell could not be started. -/
structure Session where
  label : String
  stdin : Option (List UInt8)
  child : Bool
  deriving DecidableEq, Repr

/-- The session that `spawn_session` makes, by what came of starting the shell. -/
def Session.spawned (shell : String) : Except String Unit → Session
  | .ok () => ⟨shell, some [], true⟩
  | .error _ => ⟨shell, none, false⟩

/-- What `write_all` wrote reaches the shell. -/
def Session.write (session : Session) (bytes : List UInt8) : Session :=
  { session with stdin := session.stdin.map (· ++ bytes) }

/-- `NEXT_ID`, the table of sessions, and the ids whose child was killed. -/
structure SessionTable where
  nextId : UInt64
  sessions : UInt64 → Option Session
  killed : List UInt64

def SessionTable.init : SessionTable := ⟨1, fun _ => none, []⟩

namespace SessionTable

def insert (s : SessionTable) (id : UInt64) (session : Session) : SessionTable :=
  { s with sessions := Function.update s.sessions id (some session) }

/-- `/term/input`, which holds the lock of the table all along. -/
def input (s : SessionTable) (id : UInt64) (written : List UInt8) : SessionTable :=
  match s.sessions id with
  | some session => s.insert id (session.write written)
  | none => s

/-- `/term/kill`, which holds the lock of the table all along. -/
def kill (s : SessionTable) (id : UInt64) : SessionTable :=
  match s.sessions id with
  | some session =>
    { s with
      sessions := Function.update s.sessions id none
      killed := if session.child then s.killed ++ [id] else s.killed }
  | none => s

end SessionTable

/-- Where a connection stands in `handle`: in front of its request, between the
two critical sections of `spawn_session`, or behind them with an id to reply. -/
inductive Connection
  | waiting
  | inserting (id : UInt64) (shell : String)
  | replied (id : UInt64)
  deriving DecidableEq, Repr

/-- What a step does to the table. A write that fails gets a part of the body
across. -/
inductive SessionEvent
  | take (id : UInt64)
  | insert (id : UInt64) (session : Session)
  | input (id : UInt64) (body written : List UInt8)
  | kill (id : UInt64)
  deriving DecidableEq, Repr

/-- A connection takes a step in any state of the table. -/
inductive ConnectionStep : SessionTable → Connection → SessionEvent → SessionTable → Connection → Prop
  | take {s} (shell : String) :
      ConnectionStep s .waiting (.take s.nextId) { s with nextId := s.nextId + 1 } (.inserting s.nextId shell)
  | insert {s id shell} (started : Except String Unit) :
      ConnectionStep s (.inserting id shell) (.insert id (.spawned shell started))
        (s.insert id (.spawned shell started)) (.replied id)
  | input {s id body written} : written <+: body →
      ConnectionStep s .waiting (.input id body written) (s.input id written) .waiting
  | kill {s id} : ConnectionStep s .waiting (.kill id) (s.kill id) .waiting

abbrev Connections (ι : Type) := Threads ι SessionTable Connection

abbrev SessionHistory (ι : Type) := List (Transition (Connections ι) (ι × SessionEvent))

/-- Any interleaving of any number of connections, from the start of the server. -/
abbrev SessionRun {ι : Type} [DecidableEq ι] (history : SessionHistory ι) (s : Connections ι) : Prop :=
  Run (InterleavedStep ConnectionStep) ⟨.init, fun _ => .waiting⟩ history s

def SessionEvent.taken : SessionEvent → Option UInt64
  | take id => some id
  | _ => none

def SessionEvent.inserted : SessionEvent → Option UInt64
  | insert id _ => some id
  | _ => none

/-- The bytes that an event gets across to the shell of a session. -/
def SessionEvent.writtenTo (id : UInt64) : SessionEvent → List UInt8
  | input other _ written => if other = id then written else []
  | _ => []

def sessionEvents {ι : Type} (history : SessionHistory ι) : List SessionEvent := history.map (·.label.2)

/-- What became of a session behind its insertion: it is in the table with
everything that was written to it, in order, or it was taken out and its child
was killed once. -/
def Followed (id : UInt64) (session : Session) (after : List SessionEvent) (s : SessionTable) : Prop :=
  if .kill id ∈ after then s.sessions id = none ∧ s.killed.count id = session.child.toNat
  else s.sessions id = some (session.write (after.flatMap (SessionEvent.writtenTo id))) ∧ s.killed.count id = 0

end Asolaria.Surface
