import Asolaria.Envelope.Slot
import Asolaria.Library.Interleaving
import Asolaria.Library.Mailbox
import Asolaria.Library.Run

namespace Asolaria.Envelope
open Library

/-- A call of one of the two dispatch functions. -/
inductive Call
  | enqueue (env : List UInt8) (routeHint : UInt32)
  | dequeue (buf : List UInt8) (maxWaitNs : UInt64)

/-- A finished call. A dequeue shows the buffer it was given beside the one
it leaves behind. -/
inductive Return
  | enqueue (env : List UInt8) (routeHint : UInt32) (result : Except EnvelopeErr Unit)
  | dequeue (given buf : List UInt8) (result : Except EnvelopeErr Nat)

/-- The atomic operation a caller is about to perform, with its locals. Those
after `claimWrite` own the slot in WRITING, those after `claimRead` in READING. -/
inductive Location
  | idle
  | claimWrite (env : List UInt8) (routeHint : UInt32) (fits : env.length ≤ envelopeSlotBytes)
  | storeBytes (env : List UInt8) (routeHint : UInt32) (fits : env.length ≤ envelopeSlotBytes) (i : Nat)
  | storeRoute (env : List UInt8) (routeHint : UInt32)
  | storeDepth (env : List UInt8) (routeHint : UInt32)
  | publish (env : List UInt8) (routeHint : UInt32)
  | claimRead (given : List UInt8) (spinBudget tries : Nat)
  | loadLen (given : List UInt8)
  | restore (given : List UInt8)
  | loadBytes (given buf : List UInt8) (n i : Nat)
  | clearDepth (given buf : List UInt8) (n : Nat)
  | release (given buf : List UInt8) (n : Nat)

/-- The entry of a call, up to its first atomic operation. -/
def Call.enter : Call → Location × Option Return
  | .enqueue env routeHint =>
    if fits : env.length ≤ envelopeSlotBytes then (.claimWrite env routeHint fits, none)
    else (.idle, some (.enqueue env routeHint (.error .payloadOversize)))
  | .dequeue buf maxWaitNs => (.claimRead buf (spinBudget maxWaitNs) 0, none)

/-- One atomic operation: the slot, where the caller stands next, and what
it returns if the call ends here. -/
def Location.advance (slot : Slot) : Location → Option (Slot × Location × Option Return)
  | .idle => none
  | .claimWrite env routeHint fits =>
    match slot.compareExchange .empty .writing with
    | some claimed => some (claimed, .storeBytes env routeHint fits 0, none)
    | none => some (slot, .idle, some (.enqueue env routeHint (.error .queueFull)))
  | .storeBytes env routeHint fits i =>
    if i < env.length then some (slot.storeByte env i, .storeBytes env routeHint fits (i + 1), none)
    else some (slot.storeLen env.length fits, .storeRoute env routeHint, none)
  | .storeRoute env routeHint => some (slot.storeRoute routeHint, .storeDepth env routeHint, none)
  | .storeDepth env routeHint => some (slot.storeDepth 1, .publish env routeHint, none)
  | .publish env routeHint => some (slot.storeState .full, .idle, some (.enqueue env routeHint (.ok ())))
  | .claimRead given spinBudget tries =>
    match slot.compareExchange .full .reading with
    | some claimed => some (claimed, .loadLen given, none)
    | none =>
      if tries + 1 ≥ spinBudget then some (slot, .idle, some (.dequeue given given (.error .queueEmpty)))
      else some (slot, .claimRead given spinBudget (tries + 1), none)
  | .loadLen given =>
    if slot.len > given.length then some (slot, .restore given, none)
    else some (slot, .loadBytes given given slot.len 0, none)
  | .restore given => some (slot.storeState .full, .idle, some (.dequeue given given (.error .payloadOversize)))
  | .loadBytes given buf n i =>
    if i < n then some (slot, .loadBytes given (copyCell slot.bytes buf i) n (i + 1), none)
    else some (slot.storeLen 0 (Nat.zero_le _), .clearDepth given buf n, none)
  | .clearDepth given buf n => some (slot.storeDepth 0, .release given buf n, none)
  | .release given buf n => some (slot.storeState .empty, .idle, some (.dequeue given buf (.ok n)))

/-- A caller enters a call or performs its next atomic operation. -/
inductive CallerStep : Slot → Location → Option Return → Slot → Location → Prop
  | enter {slot} (call : Call) : CallerStep slot .idle call.enter.2 slot call.enter.1
  | atomic {slot location returned after next} : location.advance slot = some (after, next, returned) →
      CallerStep slot location returned after next

variable {ι : Type} [DecidableEq ι]

/-- The slot and all its callers. -/
abbrev Bus (ι : Type) := Threads ι Slot Location

def Bus.initial (ι : Type) : Bus ι := ⟨Slot.initial, fun _ => .idle⟩

abbrev BusHistory (ι : Type) := List (Transition (Bus ι) (ι × Option Return))

/-- Any interleaving of any number of callers, from the empty slot. -/
abbrev BusRun (history : BusHistory ι) (bus : Bus ι) : Prop :=
  Run (InterleavedStep CallerStep) (Bus.initial ι) history bus

/-- What a finished call did to the one-place buffer. -/
def Return.event? : Return → Option (MailboxEvent (List UInt8))
  | .enqueue env _ (.ok _) => some (.send env)
  | .dequeue _ buf (.ok n) => some (.receive (buf.take n))
  | .enqueue _ _ (.error _) | .dequeue _ _ (.error _) => none

def busEvents (history : BusHistory ι) : List (MailboxEvent (List UInt8)) :=
  history.filterMap fun transition => transition.label.2.bind Return.event?

/-- The envelopes of the successful enqueues, in the order they returned. -/
def enqueued (history : BusHistory ι) : List (List UInt8) := (busEvents history).filterMap MailboxEvent.sent?

/-- What the successful dequeues returned, in order. -/
def dequeued (history : BusHistory ι) : List (List UInt8) := (busEvents history).filterMap MailboxEvent.received?

end Asolaria.Envelope
