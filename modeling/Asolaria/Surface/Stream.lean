import Asolaria.Library.Run

namespace Asolaria.Surface
open Library

/-- What `stream_session` writes behind its head: the label, a chunk of the
output, the comment that keeps the connection and the end. -/
inductive Frame
  | label (text : String)
  | data (chunk : List UInt8)
  | keepalive
  | done
deriving DecidableEq, Repr

/-- Where a call of `stream_session` stands: in front of the lookup of the
session, at the head of the loop, between the two locks of a turn, behind both,
or returned. -/
inductive Place
  | opening
  | reading
  | checking (chunk : Option (List UInt8))
  | answering (chunk : Option (List UInt8)) (alive : Bool)
  | ended
  | left
deriving DecidableEq, Repr

/-- A session with the call that streams it. `listed` says whether the table
of sessions still has it. -/
structure StreamState where
  label : String
  out : List UInt8
  listed : Bool
  offset : Nat
  idleTicks : UInt32
  written : List Frame
  place : Place
deriving DecidableEq, Repr

namespace StreamState

/-- The critical section of the `out` lock. -/
def read (s : StreamState) : StreamState :=
  if s.out.length > s.offset then
    let c := s.out.drop s.offset
    { s with offset := s.offset + c.length, place := .checking (some c) }
  else { s with place := .checking none }

/-- What follows the two critical sections of a turn. A write that fails ends
the call; that of the end is not looked at. -/
def answer (s : StreamState) (chunk : Option (List UInt8)) (alive delivered : Bool) : StreamState :=
  match chunk with
  | some c =>
    if delivered then { s with idleTicks := 0, written := s.written ++ [.data c], place := .reading }
    else { s with idleTicks := 0, place := .left }
  | none =>
    if !alive then { s with written := s.written ++ [.done], place := .ended }
    else
      let idleTicks := s.idleTicks + 1
      if idleTicks % 100 ≠ 0 then { s with idleTicks, place := .reading }
      else if delivered then { s with idleTicks, written := s.written ++ [.keepalive], place := .reading }
      else { s with idleTicks, place := .left }

/-- The next step of `stream_session`. -/
def stream (s : StreamState) (delivered : Bool) : StreamState :=
  match s.place with
  | .opening =>
    if s.listed ∧ delivered then { s with written := s.written ++ [.label s.label], place := .reading }
    else { s with place := .left }
  | .reading => s.read
  | .checking chunk => { s with place := .answering chunk s.listed }
  | .answering chunk alive => s.answer chunk alive delivered
  | .ended | .left => s

end StreamState

/-- A step of the stream, with what its write came to, an append of a pump or
a call of `/term/kill`. -/
inductive StreamEvent
  | stream (delivered : Bool)
  | append (bytes : List UInt8)
  | kill
deriving DecidableEq, Repr

def StreamState.perform (s : StreamState) : StreamEvent → StreamState
  | .stream delivered => s.stream delivered
  | .append bytes => { s with out := s.out ++ bytes }
  | .kill => { s with listed := false }

/-- The parties take their steps in any order. -/
def StreamStep (s : StreamState) (event : StreamEvent) (after : StreamState) : Prop := s.perform event = after

/-- A call that has not begun, for a session in any state. -/
structure StreamState.Fresh (s : StreamState) : Prop where
  place : s.place = .opening
  offset : s.offset = 0
  written : s.written = []

def Frame.chunk : Frame → List UInt8
  | data chunk => chunk
  | _ => []

/-- The chunks that were sent, one behind the other. -/
def StreamState.sent (s : StreamState) : List UInt8 := s.written.flatMap Frame.chunk

abbrev StreamTransition := Transition StreamState StreamEvent

/-- The step that takes the session from the table. -/
def Removes (step : StreamTransition) : Prop := step.label = .kill ∧ step.before.listed = true

instance (step : StreamTransition) : Decidable (Removes step) :=
  inferInstanceAs (Decidable (step.label = .kill ∧ step.before.listed = true))

/-- The stream has seen no new output, and there is some by now, but it has
not looked at the table yet. -/
def StreamState.Exposed (s : StreamState) : Prop := s.place = .checking none ∧ s.offset < s.out.length

instance (s : StreamState) : Decidable s.Exposed :=
  inferInstanceAs (Decidable (s.place = .checking none ∧ s.offset < s.out.length))

/-- What was sent is a beginning of the output, with all of it that was there
when the session was taken from the table. -/
def Complete (history : List StreamTransition) (s : StreamState) : Prop :=
  s.sent <+: s.out ∧ ∀ step ∈ history, Removes step → step.before.out <+: s.sent

instance (history : List StreamTransition) (s : StreamState) : Decidable (Complete history s) :=
  inferInstanceAs (Decidable (s.sent <+: s.out ∧ ∀ step ∈ history, Removes step → step.before.out <+: s.sent))

end Asolaria.Surface
