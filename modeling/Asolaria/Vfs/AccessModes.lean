import Asolaria.Library.Text
import Asolaria.Syscall.Kernel
import Asolaria.Vfs.OpenFiles

namespace Asolaria.Vfs
open Library Envelope Syscall

variable {history : VfsHistory} {s : VfsState} {first : Slot} {fd : UInt64} {path buf : List UInt8} {mode : UInt32}

/-- The call that returned the descriptor, which was not closed since. -/
def OpenedBy (history : VfsHistory) (fd : UInt64) (path : List UInt8) (mode : UInt32) : Prop :=
  ∃ before call after, history = before ++ call :: after ∧ call.label = .vfsOpen path mode (.ok fd) ∧
    ∀ later ∈ after, later.label ≠ .vfsClose fd (.ok ())

/-- An operation on a descriptor succeeds only with the matching bit of the mode
it was opened with. -/
def RespectsModes (history : VfsHistory) (s : VfsState) : Prop :=
  ∀ fd path mode, UserFd fd → OpenedBy history fd path mode →
    (∀ buf n, (vfsWrite s.slot s.table fd buf).1 = .ok n → mode &&& oWronly ≠ 0) ∧
    ∀ buf len n, (vfsRead s.slot s.table fd buf len).1 = .ok n → mode &&& oRdonly ≠ 0

/-- The modes `vfs_open` accepts. -/
def ValidMode (mode : UInt32) : Prop := mode ≠ 0 ∧ mode &&& ~~~modeMask = 0

instance (mode : UInt32) : Decidable (ValidMode mode) := inferInstanceAs (Decidable (_ ∧ _))

theorem and_or_words (a b c : UInt32) : a &&& (b ||| c) = (a &&& b) ||| (a &&& c) := by
  apply UInt32.toBitVec_inj.mp
  rw [UInt32.toBitVec_and, UInt32.toBitVec_or, UInt32.toBitVec_or, UInt32.toBitVec_and, UInt32.toBitVec_and]
  exact BitVec.and_or_distrib_left

/-- A mode that is accepted has one of the two bits. -/
theorem ValidMode.has_bit (valid : ValidMode mode) : mode &&& oRdonly ≠ 0 ∨ mode &&& oWronly ≠ 0 := by
  by_contra neither
  obtain ⟨noRead, noWrite⟩ := not_or.mp neither
  have bits : oRdonly ||| (oWronly ||| ~~~modeMask) = -1 := by decide
  have masked : mode &&& -1 = 0 := by
    rw [← bits, and_or_words, and_or_words, not_not.mp noRead, not_not.mp noWrite, valid.2]
    decide
  exact valid.1 (by simpa using masked)

theorem OpenedBy.later (opened : OpenedBy history fd path mode) {call : Transition VfsState VfsLabel}
    (kept : call.label ≠ .vfsClose fd (.ok ())) : OpenedBy (history ++ [call]) fd path mode := by
  obtain ⟨before, first, after, rfl, returned, unclosed⟩ := opened
  refine ⟨before, first, after ++ [call], by simp, returned, fun later member => ?_⟩
  rcases List.mem_append.mp member with old | new
  · exact unclosed later old
  · rw [List.mem_singleton.mp new]
    exact kept

/-- Whatever is open was opened by a call with an accepted mode. -/
theorem VfsRun.openedBy (run : VfsRun first history s) (held : openFiles history fd = some path) :
    ∃ mode, OpenedBy history fd path mode ∧ ValidMode mode := by
  induction run generalizing path with
  | start => cases held
  | @next history s label after previous step ih =>
    have refines := VfsRun.refines previous
    rw [openFiles_next] at held
    have kept (unchanged : openFiles history fd = some path) (unclosed : label ≠ .vfsClose fd (.ok ())) :
        ∃ mode, OpenedBy (history ++ [⟨s, label, after⟩]) fd path mode ∧ ValidMode mode := by
      obtain ⟨mode, opened, valid⟩ := ih unchanged
      exact ⟨mode, opened.later unclosed, valid⟩
    cases step with
    | vfsRead | vfsWrite => exact kept held (fun closes => by cases closes)
    | vfsOpen path' mode =>
      have opens := (vfsOpen_contract refines path' mode).1
      generalize Vfs.vfsOpen s.table path' mode = outcome at opens held kept ⊢
      obtain ⟨reply, table⟩ := outcome
      cases reply with
      | error error => exact kept held (fun closes => by cases closes)
      | ok returned =>
        by_cases same : fd = returned
        · subst same
          obtain rfl : path' = path := by simpa [VfsLabel.event?, OwnershipEvent.record] using held
          obtain ⟨_, nonzero, inside⟩ := ((opens fd).mp rfl).1
          exact ⟨mode, ⟨history, _, [], rfl, rfl, by simp⟩, nonzero, inside⟩
        · refine kept ?_ (fun closes => by cases closes)
          simpa [VfsLabel.event?, OwnershipEvent.record, Function.update_of_ne same] using held
    | vfsClose closed =>
      generalize (Vfs.vfsClose s.table closed) = outcome at held kept ⊢
      obtain ⟨reply, table⟩ := outcome
      cases reply with
      | error error => exact kept held (fun closes => by cases closes)
      | ok returned =>
        by_cases same : fd = closed
        · subst same
          simp [VfsLabel.event?, OwnershipEvent.record] at held
        · refine kept ?_ fun equal => same (VfsLabel.vfsClose.inj equal).1.symm
          simpa [VfsLabel.event?, OwnershipEvent.record, Function.update_of_ne same] using held

theorem readByPath_ok {slot : Slot} {path : Option (List UInt8)} {len n : Nat}
    (read : (readByPath slot path buf len).1 = .ok n) : path = some devNullPath ∨ path = some busEnvelopePath := by
  by_contra other
  obtain ⟨notNull, notBus⟩ := not_or.mp other
  unfold readByPath at read
  rw [if_neg notNull, if_neg notBus] at read
  split at read
  · cases read
  · cases read

theorem writeByPath_ok {slot : Slot} {path : Option (List UInt8)} {n : Nat}
    (written : (writeByPath slot path buf).1 = .ok n) : path = some devNullPath ∨ path = some busEnvelopePath := by
  by_contra other
  obtain ⟨notNull, notBus⟩ := not_or.mp other
  unfold writeByPath at written
  rw [if_neg notNull, if_neg notBus] at written
  split at written
  · cases written
  · cases written

/-- The descriptor was opened for one of the two devices, with one of the two
mode bits, and not closed since. -/
def Usable (history : VfsHistory) (fd : UInt64) : Prop :=
  ∃ path mode, OpenedBy history fd path mode ∧ (path = devNullPath ∨ path = busEnvelopePath) ∧
    (mode &&& oRdonly ≠ 0 ∨ mode &&& oWronly ≠ 0)

theorem VfsRun.usable (run : VfsRun first history s)
    (device : openFiles history fd = some devNullPath ∨ openFiles history fd = some busEnvelopePath) :
    Usable history fd := by
  obtain ⟨path, held, known⟩ : ∃ path, openFiles history fd = some path ∧ (path = devNullPath ∨ path = busEnvelopePath) := by
    rcases device with null | bus
    · exact ⟨_, null, .inl rfl⟩
    · exact ⟨_, bus, .inr rfl⟩
  obtain ⟨mode, opened, valid⟩ := VfsRun.openedBy run held
  exact ⟨path, mode, opened, known, valid.has_bit⟩

theorem VfsRun.usable_of_read (run : VfsRun first history s) (user : UserFd fd) {len n : Nat}
    (read : (vfsRead s.slot s.table fd buf len).1 = .ok n) : Usable history fd := by
  rw [vfsRead_eq (VfsRun.refines run) user.1] at read
  exact VfsRun.usable run (readByPath_ok read)

theorem VfsRun.usable_of_write (run : VfsRun first history s) (user : UserFd fd) {n : Nat}
    (written : (vfsWrite s.slot s.table fd buf).1 = .ok n) : Usable history fd := by
  rw [vfsWrite_eq (VfsRun.refines run) user.1] at written
  exact VfsRun.usable run (writeByPath_ok written)

theorem mapError_ok {α ε δ : Type*} {reply : Except ε α} {convert : ε → δ} {a : α}
    (returned : reply.mapError convert = .ok a) : reply = .ok a := by
  cases reply with
  | error error => cases returned
  | ok value =>
    cases returned
    rfl

/-- What the two system calls return comes from the two functions below them. -/
theorem sysRead_ok {k : Kernel} {len n : Nat} (read : (k.sysRead fd buf len).1 = .ok n) :
    (vfsRead k.slot k.fds fd buf len).1 = .ok n := by
  unfold Kernel.sysRead at read
  split at read
  · cases read
  · exact mapError_ok read

theorem sysWrite_ok {k : Kernel} {n : Nat} (written : (k.sysWrite fd buf).1 = .ok n) :
    (vfsWrite k.slot k.fds fd buf).1 = .ok n := by
  unfold Kernel.sysWrite at written
  split at written
  · cases written
  · exact mapError_ok written

theorem vfsOpen_valid {table : FdTable} {mode' : UInt32} (valid : ValidMode mode) (valid' : ValidMode mode') :
    vfsOpen table path mode = vfsOpen table path mode' := by
  have accepted {mode : UInt32} (valid : ValidMode mode) : ¬ (mode = 0 ∨ mode &&& ~~~modeMask ≠ 0) :=
    not_or.mpr ⟨valid.1, not_not.mpr valid.2⟩
  rw [vfsOpen, vfsOpen, if_neg (accepted valid), if_neg (accepted valid')]

/-- The same call with the same result, up to the mode of an open. -/
structure ModeChanged (call other : Transition VfsState VfsLabel) : Prop where
  before : other.before = call.before
  after : other.after = call.after
  label : other.label = call.label ∨ ∃ path mode mode' reply, ValidMode mode ∧ ValidMode mode' ∧
    call.label = .vfsOpen path mode reply ∧ other.label = .vfsOpen path mode' reply

theorem VfsStep.open_valid {before after : VfsState} {mode' : UInt32} {reply : Except VfsErr UInt64}
    (step : VfsStep before (.vfsOpen path mode reply) after) (valid : ValidMode mode) (valid' : ValidMode mode') :
    VfsStep before (.vfsOpen path mode' reply) after := by
  cases step
  rw [vfsOpen_valid valid valid']
  exact .vfsOpen path mode'

theorem VfsStep.mode_changed {call other : Transition VfsState VfsLabel} (step : VfsStep call.before call.label call.after)
    (changed : ModeChanged call other) : VfsStep other.before other.label other.after := by
  rw [changed.before, changed.after]
  rcases changed.label with same | ⟨path, mode, mode', reply, valid, valid', given, opened⟩
  · rw [same]
    exact step
  · rw [given] at step
    rw [opened]
    exact step.open_valid valid valid'

/-- No result of a run shows with which of the accepted modes a descriptor was
opened. -/
theorem VfsRun.mode_changed (run : VfsRun first history s) {others : VfsHistory}
    (changed : List.Forall₂ ModeChanged history others) : VfsRun first others s := by
  induction run generalizing others with
  | start =>
    cases changed
    exact .start
  | @next history s label after previous step ih =>
    obtain ⟨earlier, last, rfl, same, lastChanged⟩ := forall₂_concat changed
    have moved := VfsStep.mode_changed step lastChanged
    obtain ⟨before, label', after'⟩ := last
    obtain rfl : before = s := lastChanged.before
    obtain rfl : after' = after := lastChanged.after
    exact .next (ih same) moved

/-- Where a mode has an effect: at the open alone. -/
structure ModesAtOpenOnly (history : VfsHistory) (s : VfsState) : Prop where
  vfsWrite : ∀ fd buf n, UserFd fd → (vfsWrite s.slot s.table fd buf).1 = .ok n → Usable history fd
  vfsRead : ∀ fd buf len n, UserFd fd → (vfsRead s.slot s.table fd buf len).1 = .ok n → Usable history fd
  sysWrite : ∀ k : Kernel, k.slot = s.slot → k.fds = s.table → ∀ fd buf n, UserFd fd →
    (k.sysWrite fd buf).1 = .ok n → Usable history fd
  sysRead : ∀ k : Kernel, k.slot = s.slot → k.fds = s.table → ∀ fd buf len n, UserFd fd →
    (k.sysRead fd buf len).1 = .ok n → Usable history fd

/-- In every run an operation succeeds only on a descriptor that was opened for
a device with an accepted mode, and any other accepted modes give the same
results. -/
theorem VfsRun.modes_at_open_only (run : VfsRun first history s) : ModesAtOpenOnly history s ∧
    ∀ others, List.Forall₂ ModeChanged history others → VfsRun first others s := by
  refine ⟨{ vfsWrite := ?_, vfsRead := ?_, sysWrite := ?_, sysRead := ?_ }, fun others => VfsRun.mode_changed run⟩
  · exact fun fd buf n user written => VfsRun.usable_of_write run user written
  · exact fun fd buf len n user read => VfsRun.usable_of_read run user read
  · intro k slot fds fd buf n user written
    have below := sysWrite_ok written
    rw [slot, fds] at below
    exact VfsRun.usable_of_write run user below
  · intro k slot fds fd buf len n user read
    have below := sysRead_ok read
    rw [slot, fds] at below
    exact VfsRun.usable_of_read run user below

/-- The null device opened with the given mode, as the only call. -/
def openedNull (mode : UInt32) : VfsHistory :=
  [⟨⟨Slot.initial, FdTable.initial⟩, .vfsOpen devNullPath mode (.ok 3),
    ⟨Slot.initial, (vfsOpen FdTable.initial devNullPath oRdonly).2⟩⟩]

theorem openedNull_run : VfsRun Slot.initial (openedNull oRdonly)
    ⟨Slot.initial, (vfsOpen FdTable.initial devNullPath oRdonly).2⟩ := by
  have returned : (vfsOpen FdTable.initial devNullPath oRdonly).1 = .ok 3 := rfl
  have run : VfsRun Slot.initial _ _ := .next .start (.vfsOpen devNullPath oRdonly)
  rw [List.nil_append, returned] at run
  exact run

theorem openedNull_modes : Usable (openedNull oRdonly) 3 ∧ VfsRun Slot.initial (openedNull oWronly)
    ⟨Slot.initial, (vfsOpen FdTable.initial devNullPath oRdonly).2⟩ := by
  obtain ⟨atOpen, changed⟩ := VfsRun.modes_at_open_only openedNull_run
  refine ⟨atOpen.vfsWrite 3 (utf8 "hello") 5 (by decide) (by decide +kernel), changed _ (.cons ⟨rfl, rfl, .inr ?_⟩ .nil)⟩
  exact ⟨devNullPath, oRdonly, oWronly, .ok 3, by decide, by decide, rfl, rfl⟩

/-- A descriptor opened for reading can be written to. -/
theorem openedNull_written : VfsRun Slot.initial (openedNull oRdonly)
      ⟨Slot.initial, (vfsOpen FdTable.initial devNullPath oRdonly).2⟩ ∧
    ¬ RespectsModes (openedNull oRdonly) ⟨Slot.initial, (vfsOpen FdTable.initial devNullPath oRdonly).2⟩ := by
  refine ⟨openedNull_run, fun respects => ?_⟩
  have opened : OpenedBy (openedNull oRdonly) 3 devNullPath oRdonly := ⟨[], _, [], rfl, rfl, by simp⟩
  exact (respects 3 devNullPath oRdonly (by decide) opened).1 (utf8 "hello") 5 (by decide +kernel) (by decide)

end Asolaria.Vfs
