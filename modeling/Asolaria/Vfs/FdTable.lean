import Asolaria.Envelope.Slot
import Mathlib.Logic.Function.Basic

namespace Asolaria.Vfs
open Library Envelope

inductive VfsErr
  | invalidFd
  | invalidOpForFd
  | invalidBuf
  | lenExceedsBuf
  | tableFull
  | invalidPath
  | invalidMode
  | payloadOversize
  | wouldBlock
  | unimplemented
  deriving DecidableEq, Repr

def stdinFd : UInt64 := 0

def stdoutFd : UInt64 := 1

def stderrFd : UInt64 := 2

def reservedFdMax : UInt64 := stderrFd

def fdTableSize : Nat := 256

/-- The state byte of a slot. Every value but `free` is a binding kind. -/
inductive FdState
  | free
  | unbacked
  | devNull
  | busEnvelope
  deriving DecidableEq, Repr

def oRdonly : UInt32 := 1

def oWronly : UInt32 := 2

def oRdwr : UInt32 := 3

def modeMask : UInt32 := oRdonly ||| oWronly ||| oRdwr

abbrev FdTable := Fin fdTableSize → FdState

namespace FdTable

def initial : FdTable := fun _ => .free

/-- `FD_STATE[fd as usize].load()`, `none` where the index is past the table. -/
def load (table : FdTable) (fd : UInt64) : Option FdState :=
  if range : fd.toNat < fdTableSize then some (table ⟨fd.toNat, range⟩) else none

end FdTable

def vfsIsOpen (table : FdTable) (fd : UInt64) : Bool :=
  if fd ≤ reservedFdMax then true
  else
    match table.load fd with
    | none => false
    | some state => state ≠ .free

def devNullPath : List UInt8 := "/dev/null".toUTF8.data.toList

def busEnvelopePath : List UInt8 := "/dev/bus/envelope".toUTF8.data.toList

def bindingKindForPath (path : List UInt8) : FdState :=
  if path = devNullPath then .devNull else if path = busEnvelopePath then .busEnvelope else .unbacked

/-- The indices `vfs_open` scans, above the reserved ones. -/
def userFds : List (Fin fdTableSize) := (List.finRange fdTableSize).drop (reservedFdMax.toNat + 1)

/-- The scan of `vfs_open`: the first slot whose exchange succeeds. -/
def openFirst (table : FdTable) (kind : FdState) : List (Fin fdTableSize) → Except VfsErr UInt64 × FdTable
  | [] => (.error .tableFull, table)
  | fd :: rest =>
    if table fd = .free then (.ok (UInt64.ofNat fd.val), Function.update table fd kind) else openFirst table kind rest

def vfsOpen (table : FdTable) (path : List UInt8) (mode : UInt32) : Except VfsErr UInt64 × FdTable :=
  if path.isEmpty then (.error .invalidPath, table)
  else if mode = 0 ∨ mode &&& ~~~modeMask ≠ 0 then (.error .invalidMode, table)
  else openFirst table (bindingKindForPath path) userFds

def vfsClose (table : FdTable) (fd : UInt64) : Except VfsErr Unit × FdTable :=
  if fd ≤ reservedFdMax then (.error .invalidOpForFd, table)
  else if range : fd.toNat < fdTableSize then
    -- the swap stores FREE whatever was there before
    let after := Function.update table ⟨fd.toNat, range⟩ .free
    if table ⟨fd.toNat, range⟩ = .free then (.error .invalidFd, after) else (.ok (), after)
  else (.error .invalidFd, table)

/-- How the errors of a dequeue appear to a reader. -/
def readErr : EnvelopeErr → VfsErr
  | .queueEmpty => .wouldBlock
  | .payloadOversize => .payloadOversize
  | _ => .invalidFd

/-- How the errors of an enqueue appear to a writer. -/
def writeErr : EnvelopeErr → VfsErr
  | .queueFull => .wouldBlock
  | .payloadOversize => .payloadOversize
  | _ => .invalidFd

/-- `vfs_read`: the result, the caller's buffer and the slot. A bus
descriptor lends the dequeue only the first `len` bytes of the buffer. -/
def vfsRead (slot : Slot) (table : FdTable) (fd : UInt64) (buf : List UInt8) (len : Nat) :
    Except VfsErr Nat × List UInt8 × Slot :=
  if len > buf.length then (.error .lenExceedsBuf, buf, slot)
  else if fd = stdinFd then (.ok 0, buf, slot)
  else if fd = stdoutFd ∨ fd = stderrFd then (.error .invalidOpForFd, buf, slot)
  else
    match table.load fd with
    | none | some .free | some .unbacked => (.error .invalidFd, buf, slot)
    | some .devNull => (.ok 0, buf, slot)
    | some .busEnvelope =>
      let (reply, lent, after) := dispatchDequeueBytes slot (buf.take len) 0
      (reply.mapError readErr, lent ++ buf.drop len, after)

/-- `vfs_write`: the result and the slot. -/
def vfsWrite (slot : Slot) (table : FdTable) (fd : UInt64) (buf : List UInt8) : Except VfsErr Nat × Slot :=
  if buf.isEmpty then (.error .invalidBuf, slot)
  else if fd = stdoutFd ∨ fd = stderrFd then (.ok buf.length, slot)
  else if fd = stdinFd then (.error .invalidOpForFd, slot)
  else
    match table.load fd with
    | none | some .free | some .unbacked => (.error .invalidFd, slot)
    | some .devNull => (.ok buf.length, slot)
    | some .busEnvelope =>
      let (reply, after) := dispatchEnqueueBytes slot buf 0
      ((reply.mapError writeErr).map fun _ => buf.length, after)

/-- The descriptor reads and writes the envelope bus. -/
def FdTable.OnBus (table : FdTable) (fd : UInt64) : Prop :=
  fd ≠ stdinFd ∧ fd ≠ stdoutFd ∧ fd ≠ stderrFd ∧ table.load fd = some .busEnvelope

instance (table : FdTable) (fd : UInt64) : Decidable (table.OnBus fd) :=
  inferInstanceAs (Decidable (_ ∧ _ ∧ _ ∧ _))

variable {slot : Slot} {table : FdTable} {fd : UInt64} {buf path : List UInt8} {len : Nat} {mode : UInt32}

theorem vfsRead_onBus (bound : table.OnBus fd) (room : len ≤ buf.length) :
    vfsRead slot table fd buf len = ((dispatchDequeueBytes slot (buf.take len) 0).1.mapError readErr,
      (dispatchDequeueBytes slot (buf.take len) 0).2.1 ++ buf.drop len,
      (dispatchDequeueBytes slot (buf.take len) 0).2.2) := by
  obtain ⟨notIn, notOut, notErr, kind⟩ := bound
  simp only [vfsRead, if_neg (Nat.not_lt.mpr room), notIn, notOut, notErr, or_self, kind, if_false, gt_iff_lt]

/-- Off the bus a read changes neither the buffer nor the slot. -/
theorem vfsRead_offBus (free : ¬ (table.OnBus fd ∧ len ≤ buf.length)) :
    (vfsRead slot table fd buf len).2 = (buf, slot) := by
  unfold vfsRead
  split
  · rfl
  · next room =>
    split
    · rfl
    · next notIn =>
      split
      · rfl
      · next notStd =>
        have off : table.load fd ≠ some .busEnvelope := fun kind =>
          free ⟨⟨notIn, fun same => notStd (.inl same), fun same => notStd (.inr same), kind⟩, by omega⟩
        split <;> first | rfl | contradiction

theorem vfsWrite_onBus (bound : table.OnBus fd) (present : buf ≠ []) :
    vfsWrite slot table fd buf = (((dispatchEnqueueBytes slot buf 0).1.mapError writeErr).map fun _ => buf.length,
      (dispatchEnqueueBytes slot buf 0).2) := by
  obtain ⟨notIn, notOut, notErr, kind⟩ := bound
  simp [vfsWrite, present, notIn, notOut, notErr, kind]

/-- Off the bus a write leaves the slot alone. -/
theorem vfsWrite_offBus (free : ¬ (table.OnBus fd ∧ buf ≠ [])) : (vfsWrite slot table fd buf).2 = slot := by
  unfold vfsWrite
  split
  · rfl
  · next present =>
    split
    · rfl
    · next notStd =>
      split
      · rfl
      · next notIn =>
        have off : table.load fd ≠ some .busEnvelope := fun kind =>
          free ⟨⟨notIn, fun same => notStd (.inl same), fun same => notStd (.inr same), kind⟩, by simpa using present⟩
        split <;> first | rfl | contradiction

/-- The scan stops at the first free slot of its list, or finds none and
changes nothing. -/
theorem openFirst_first (table : FdTable) (kind : FdState) (cells : List (Fin fdTableSize)) :
    (openFirst table kind cells = (.error .tableFull, table) ∧ ∀ cell ∈ cells, table cell ≠ .free) ∨
    ∃ before cell after, cells = before ++ cell :: after ∧ (∀ earlier ∈ before, table earlier ≠ .free) ∧
      table cell = .free ∧
      openFirst table kind cells = (.ok (UInt64.ofNat cell.val), Function.update table cell kind) := by
  induction cells with
  | nil => exact .inl ⟨rfl, by simp⟩
  | cons cell rest ih =>
    by_cases free : table cell = .free
    · exact .inr ⟨[], cell, rest, rfl, by simp, free, by rw [openFirst, if_pos free]⟩
    · rw [openFirst, if_neg free]
      rcases ih with ⟨full, taken⟩ | ⟨before, found, after, rfl, taken, first⟩
      · refine .inl ⟨full, fun other member => ?_⟩
        rcases List.mem_cons.mp member with rfl | member
        · exact free
        · exact taken other member
      · refine .inr ⟨cell :: before, found, after, rfl, fun other member => ?_, first⟩
        rcases List.mem_cons.mp member with rfl | member
        · exact free
        · exact taken other member

/-- A refused open leaves the table alone. -/
theorem vfsOpen_error {error : VfsErr} (fails : (vfsOpen table path mode).1 = .error error) :
    (vfsOpen table path mode).2 = table := by
  unfold vfsOpen at fails ⊢
  split
  · rfl
  · next present =>
    rw [if_neg present] at fails
    split
    · rfl
    · next valid =>
      rw [if_neg valid] at fails
      rcases openFirst_first table (bindingKindForPath path) userFds with ⟨full, _⟩ | ⟨_, slot, _, _, _, _, opened⟩
      · rw [full]
      · rw [opened] at fails
        cases fails

/-- A refused close leaves the table alone: freeing a free slot is nothing. -/
theorem vfsClose_error {error : VfsErr} (fails : (vfsClose table fd).1 = .error error) :
    (vfsClose table fd).2 = table := by
  unfold vfsClose at fails ⊢
  split
  · rfl
  · next user =>
    rw [if_neg user] at fails
    split
    · next range =>
      rw [dif_pos range] at fails
      by_cases free : table ⟨fd.toNat, range⟩ = .free
      · simp only [if_pos free]
        rw [← free, Function.update_eq_self]
      · simp only [if_neg free] at fails
        cases fails
    · rfl

end Asolaria.Vfs
