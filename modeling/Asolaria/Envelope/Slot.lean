import Asolaria.Library.Copy

namespace Asolaria.Envelope
open Library

/-- The errors of `EnvelopeErr`. -/
inductive EnvelopeErr
  | queueFull
  | queueEmpty
  | payloadOversize
  | signatureInvalid
  | routeUnknown
  | unimplemented
  deriving DecidableEq, Repr

/-- Most bytes one slot can hold. -/
def envelopeSlotBytes : Nat := 1024

/-- Least bytes accepted by the syscall layer for send and exec. -/
def minEnvelopeBytes : Nat := 32

def envelopeQueueCapacity : Nat := 16384

def envelopeGcTriggerPct : Nat := 75

/-- The four values of `SLOT_STATE`. -/
inductive SlotState
  | empty
  | writing
  | full
  | reading
  deriving DecidableEq, Repr

/-- The statics of the single-slot queue. Every store into `SLOT_LEN` is a
length that was checked against the array, so no index is out of bounds. -/
@[ext] structure Slot where
  state : SlotState
  len : Nat
  route : UInt32
  bytes : List UInt8
  depth : Nat
  len_le : len ≤ envelopeSlotBytes
  bytes_length : bytes.length = envelopeSlotBytes

namespace Slot

/-- The slot as the statics are initialised. -/
def initial : Slot where
  state := .empty
  len := 0
  route := 0
  bytes := List.replicate envelopeSlotBytes 0
  depth := 0
  len_le := Nat.zero_le _
  bytes_length := List.length_replicate

def storeState (slot : Slot) (state : SlotState) : Slot := { slot with state }

def storeLen (slot : Slot) (len : Nat) (len_le : len ≤ envelopeSlotBytes) : Slot := { slot with len, len_le }

def storeRoute (slot : Slot) (route : UInt32) : Slot := { slot with route }

def storeDepth (slot : Slot) (depth : Nat) : Slot := { slot with depth }

/-- `SLOT_BYTES[i].store(env[i])`. -/
def storeByte (slot : Slot) (env : List UInt8) (i : Nat) : Slot :=
  { slot with bytes := copyCell env slot.bytes i, bytes_length := by rw [length_copyCell, slot.bytes_length] }

/-- The loop of such stores over `0..n`. -/
def storeBytes (slot : Slot) (env : List UInt8) (n : Nat) : Slot :=
  { slot with bytes := copyPrefix env slot.bytes n, bytes_length := by rw [length_copyPrefix, slot.bytes_length] }

/-- `SLOT_STATE.compare_exchange(current, new)`, `none` where it fails. -/
def compareExchange (slot : Slot) (current new : SlotState) : Option Slot :=
  if slot.state = current then some (slot.storeState new) else none

end Slot

/-- `dispatch_enqueue_bytes`, run without interference. -/
def dispatchEnqueueBytes (slot : Slot) (env : List UInt8) (routeHint : UInt32) : Except EnvelopeErr Unit × Slot :=
  if fits : env.length ≤ envelopeSlotBytes then
    match slot.compareExchange .empty .writing with
    | none => (.error .queueFull, slot)
    | some claimed =>
      (.ok (), ((((claimed.storeBytes env env.length).storeLen env.length fits).storeRoute routeHint).storeDepth
        1).storeState .full)
  else (.error .payloadOversize, slot)

/-- The polls a dequeue may spend: `max_wait_ns` capped at a million, and
one where it is zero. -/
def spinBudget (maxWaitNs : UInt64) : Nat :=
  if maxWaitNs = 0 then 1 else min maxWaitNs.toNat 1000000

/-- What a dequeue does once it owns the slot. A short buffer puts the slot
back to FULL and takes nothing. -/
def dequeueClaimed (slot : Slot) (buf : List UInt8) : Except EnvelopeErr Nat × List UInt8 × Slot :=
  let n := slot.len
  if n > buf.length then (.error .payloadOversize, buf, slot.storeState .full)
  else (.ok n, copyPrefix slot.bytes buf n, ((slot.storeLen 0 (Nat.zero_le _)).storeDepth 0).storeState .empty)

/-- The polling loop of a dequeue, by the polls it has left. -/
def dequeueLoop (slot : Slot) (buf : List UInt8) : Nat → Except EnvelopeErr Nat × List UInt8 × Slot
  | 0 => (.error .queueEmpty, buf, slot)
  | polls + 1 =>
    match slot.compareExchange .full .reading with
    | some claimed => dequeueClaimed claimed buf
    | none => dequeueLoop slot buf polls

/-- `dispatch_dequeue_bytes`, run without interference: the result, the
caller's buffer and the slot. -/
def dispatchDequeueBytes (slot : Slot) (buf : List UInt8) (maxWaitNs : UInt64) :
    Except EnvelopeErr Nat × List UInt8 × Slot := dequeueLoop slot buf (spinBudget maxWaitNs)

def queueDepth (slot : Slot) : Nat := slot.depth

def shouldTriggerGc (slot : Slot) : Bool := queueDepth slot ≥ envelopeQueueCapacity * envelopeGcTriggerPct / 100

/-- The slot holds this envelope, published and not yet claimed. -/
structure Slot.Holds (slot : Slot) (env : List UInt8) : Prop where
  state : slot.state = .full
  len : slot.len = env.length
  bytes : slot.bytes.take env.length = env
  depth : slot.depth = 1

/-- The slot is free. -/
structure Slot.Vacant (slot : Slot) : Prop where
  state : slot.state = .empty
  depth : slot.depth = 0

/-- The slot between two calls: free, or holding one envelope. -/
inductive Slot.Settled (slot : Slot) : Option (List UInt8) → Prop
  | vacant : slot.Vacant → Settled slot none
  | holds {env} : slot.Holds env → Settled slot (some env)

theorem Slot.initial_vacant : Slot.initial.Vacant := ⟨rfl, rfl⟩

theorem Slot.Holds.fits {slot : Slot} {env : List UInt8} (holds : slot.Holds env) : env.length ≤ envelopeSlotBytes := by
  rw [← holds.len]
  exact slot.len_le

theorem Slot.Holds.unique {slot : Slot} {env other : List UInt8} (holds : slot.Holds env) (holds' : slot.Holds other) :
    env = other := by
  have lengths : env.length = other.length := by rw [← holds.len, ← holds'.len]
  rw [← holds.bytes, ← holds'.bytes, lengths]

theorem spinBudget_pos (maxWaitNs : UInt64) : 0 < spinBudget maxWaitNs := by
  unfold spinBudget
  split
  · omega
  · next nonzero =>
    have positive : maxWaitNs.toNat ≠ 0 := fun zero => nonzero (UInt64.toNat_inj.mp zero)
    omega

variable {slot : Slot} {env buf : List UInt8} {routeHint : UInt32} {maxWaitNs : UInt64} {pending : Option (List UInt8)}

theorem Slot.Settled.eq_none (settled : slot.Settled pending) (free : slot.state = .empty) : pending = none := by
  cases settled with
  | vacant => rfl
  | holds holds => cases free.symm.trans holds.state

theorem Slot.Settled.exists_holds (settled : slot.Settled pending) (full : slot.state = .full) :
    ∃ env, pending = some env ∧ slot.Holds env := by
  cases settled with
  | vacant vacant => cases full.symm.trans vacant.state
  | @holds env holds => exact ⟨env, rfl, holds⟩

/-- Everything an enqueue can do, with the condition of each outcome. -/
inductive EnqueueCase (slot : Slot) (env : List UInt8) (routeHint : UInt32) : Except EnvelopeErr Unit × Slot → Prop
  | oversize : envelopeSlotBytes < env.length → EnqueueCase slot env routeHint (.error .payloadOversize, slot)
  | occupied : env.length ≤ envelopeSlotBytes → slot.state ≠ .empty →
      EnqueueCase slot env routeHint (.error .queueFull, slot)
  | stored {after} : slot.state = .empty → after.Holds env → after.route = routeHint →
      EnqueueCase slot env routeHint (.ok (), after)

/-- The bytes of an envelope stored one by one are its own prefix of the
array, whatever an earlier envelope left behind. -/
theorem Slot.take_storeBytes (slot : Slot) (fits : env.length ≤ envelopeSlotBytes) :
    (slot.storeBytes env env.length).bytes.take env.length = env := by
  have range : env.length ≤ slot.bytes.length := by
    rw [slot.bytes_length]
    exact fits
  show (copyPrefix env slot.bytes env.length).take env.length = env
  rw [copyPrefix_eq (Nat.le_refl _) range, List.take_length, List.take_left]

theorem dispatchEnqueueBytes_case (slot : Slot) (env : List UInt8) (routeHint : UInt32) :
    EnqueueCase slot env routeHint (dispatchEnqueueBytes slot env routeHint) := by
  unfold dispatchEnqueueBytes
  split
  · next fits =>
    by_cases free : slot.state = .empty
    · rw [Slot.compareExchange, if_pos free]
      exact .stored free ⟨rfl, rfl, Slot.take_storeBytes _ fits, rfl⟩ rfl
    · rw [Slot.compareExchange, if_neg free]
      exact .occupied fits free
  · next long => exact .oversize (by omega)

/-- A free slot takes any envelope that fits. -/
theorem dispatchEnqueueBytes_free (free : slot.state = .empty) (fits : env.length ≤ envelopeSlotBytes)
    (routeHint : UInt32) : ∃ after, dispatchEnqueueBytes slot env routeHint = (.ok (), after) ∧ after.Holds env := by
  have reached := dispatchEnqueueBytes_case slot env routeHint
  generalize dispatchEnqueueBytes slot env routeHint = outcome at reached
  cases reached with
  | oversize long => omega
  | occupied _ busy => exact absurd free busy
  | @stored after _ holds => exact ⟨after, rfl, holds⟩

/-- Everything a dequeue can do with a settled slot. -/
inductive DequeueCase (slot : Slot) (buf : List UInt8) : Except EnvelopeErr Nat × List UInt8 × Slot → Prop
  | nothing : slot.state ≠ .full → DequeueCase slot buf (.error .queueEmpty, buf, slot)
  | short {env : List UInt8} : slot.Holds env → buf.length < env.length → DequeueCase slot buf (.error .payloadOversize, buf, slot)
  | taken {env : List UInt8} {after : Slot} : slot.Holds env → env.length ≤ buf.length → after.Vacant →
      DequeueCase slot buf (.ok env.length, env ++ buf.drop env.length, after)

theorem dequeueLoop_not_full (occupied : slot.state ≠ .full) (polls : Nat) :
    dequeueLoop slot buf polls = (.error .queueEmpty, buf, slot) := by
  induction polls with
  | zero => rfl
  | succ polls ih => rw [dequeueLoop, Slot.compareExchange, if_neg occupied]; exact ih

theorem Slot.Holds.copyPrefix (holds : slot.Holds env) (room : env.length ≤ buf.length) :
    copyPrefix slot.bytes buf env.length = env ++ buf.drop env.length := by
  have range : env.length ≤ slot.bytes.length := by
    rw [slot.bytes_length]
    exact holds.fits
  rw [copyPrefix_eq range room, holds.bytes]

theorem dequeueClaimed_case (holds : slot.Holds env) :
    DequeueCase slot buf (dequeueClaimed (slot.storeState .reading) buf) := by
  have loaded : (slot.storeState .reading).len = env.length := holds.len
  unfold dequeueClaimed
  rw [loaded]
  by_cases room : env.length ≤ buf.length
  · have bytes : Library.copyPrefix (slot.storeState .reading).bytes buf env.length = env ++ buf.drop env.length :=
      holds.copyPrefix room
    simp only [if_neg (show ¬ env.length > buf.length by omega), bytes]
    exact .taken holds room ⟨rfl, rfl⟩
  · have restored : (slot.storeState .reading).storeState .full = slot := Slot.ext holds.state.symm rfl rfl rfl rfl
    simp only [if_pos (show env.length > buf.length by omega), restored]
    exact .short holds (by omega)

theorem dispatchDequeueBytes_case (settled : slot.Settled pending) (buf : List UInt8) (maxWaitNs : UInt64) :
    DequeueCase slot buf (dispatchDequeueBytes slot buf maxWaitNs) := by
  by_cases full : slot.state = .full
  · obtain ⟨env, _, holds⟩ := settled.exists_holds full
    obtain ⟨polls, budget⟩ := Nat.exists_eq_add_of_lt (spinBudget_pos maxWaitNs)
    rw [dispatchDequeueBytes, budget, Nat.zero_add, dequeueLoop, Slot.compareExchange, if_pos full]
    exact dequeueClaimed_case holds
  · rw [dispatchDequeueBytes, dequeueLoop_not_full full]
    exact .nothing full

/-- An envelope that fits into the buffer is handed over whole, and the slot
is free again. -/
theorem dispatchDequeueBytes_takes (holds : slot.Holds env) (room : env.length ≤ buf.length) (maxWaitNs : UInt64) :
    ∃ after, dispatchDequeueBytes slot buf maxWaitNs = (.ok env.length, env ++ buf.drop env.length, after) ∧
      after.Vacant := by
  have reached := dispatchDequeueBytes_case (.holds holds) buf maxWaitNs
  generalize dispatchDequeueBytes slot buf maxWaitNs = outcome at reached
  cases reached with
  | nothing idle => exact absurd holds.state idle
  | short other long =>
    obtain rfl := holds.unique other
    omega
  | @taken _ after other _ vacant =>
    obtain rfl := holds.unique other
    exact ⟨after, rfl, vacant⟩

/-- Between calls the depth counts the envelope that is there. -/
theorem Slot.Settled.queueDepth_eq (settled : slot.Settled pending) : queueDepth slot = pending.toList.length := by
  cases settled with
  | vacant vacant => exact vacant.depth
  | holds holds => exact holds.depth

end Asolaria.Envelope
