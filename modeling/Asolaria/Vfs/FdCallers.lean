import Asolaria.Library.Interleaving
import Asolaria.Vfs.OpenFiles

namespace Asolaria.Vfs
open Library

inductive FdCall
  | vfsOpen (path : List UInt8) (mode : UInt32)
  | vfsClose (fd : UInt64)

/-- A finished call with its result. -/
inductive FdReturn
  | vfsOpen (path : List UInt8) (mode : UInt32) (reply : Except VfsErr UInt64)
  | vfsClose (fd : UInt64) (reply : Except VfsErr Unit)

/-- Where a caller stands: in the scan of `vfs_open`, with the slots it has
not tried, or before the swap of `vfs_close`. -/
inductive FdLocation
  | idle
  | scan (path : List UInt8) (mode : UInt32) (rest : List (Fin fdTableSize)) (user : ∀ cell ∈ rest, cell ∈ userFds)
  | swap (fd : UInt64) (user : UserFd fd)

/-- The entry of a call, up to its first atomic operation. -/
def FdCall.enter : FdCall → FdLocation × Option FdReturn
  | .vfsOpen path mode =>
    if path.isEmpty then (.idle, some (.vfsOpen path mode (.error .invalidPath)))
    else if mode = 0 ∨ mode &&& ~~~modeMask ≠ 0 then (.idle, some (.vfsOpen path mode (.error .invalidMode)))
    else (.scan path mode userFds fun _ member => member, none)
  | .vfsClose fd =>
    if reserved : fd ≤ reservedFdMax then (.idle, some (.vfsClose fd (.error .invalidOpForFd)))
    else if range : fd.toNat < fdTableSize then (.swap fd ⟨UInt64.not_le.mp reserved, range⟩, none)
    else (.idle, some (.vfsClose fd (.error .invalidFd)))

/-- One `compare_exchange` of a scan or the swap of a close: the table, where
the caller stands next, and what it returns if the call ends here. -/
def FdLocation.advance (table : FdTable) : FdLocation → Option (FdTable × FdLocation × Option FdReturn)
  | .idle => none
  | .scan path mode [] _ => some (table, .idle, some (.vfsOpen path mode (.error .tableFull)))
  | .scan path mode (cell :: rest) user =>
    if table cell = .free then
      some (Function.update table cell (bindingKindForPath path), .idle,
        some (.vfsOpen path mode (.ok (UInt64.ofNat cell.val))))
    else some (table, .scan path mode rest fun other member => user other (List.mem_cons_of_mem cell member), none)
  | .swap fd user =>
    -- the swap stores FREE whatever was there before
    let after := Function.update table ⟨fd.toNat, user.2⟩ .free
    if table ⟨fd.toNat, user.2⟩ = .free then some (after, .idle, some (.vfsClose fd (.error .invalidFd)))
    else some (after, .idle, some (.vfsClose fd (.ok ())))

/-- A caller enters a call or performs its next atomic operation. -/
inductive FdCallerStep : FdTable → FdLocation → Option FdReturn → FdTable → FdLocation → Prop
  | enter {table} (call : FdCall) : FdCallerStep table .idle call.enter.2 table call.enter.1
  | atomic {table location returned after next} : location.advance table = some (after, next, returned) →
      FdCallerStep table location returned after next

/-- The table and all its callers. -/
abbrev FdThreads (ι : Type) := Threads ι FdTable FdLocation

abbrev FdHistory (ι : Type) := List (Transition (FdThreads ι) (ι × Option FdReturn))

/-- Any interleaving of any number of callers, from the empty table. -/
abbrev FdRun {ι : Type} [DecidableEq ι] (history : FdHistory ι) (fds : FdThreads ι) : Prop :=
  Run (InterleavedStep FdCallerStep) ⟨FdTable.initial, fun _ => .idle⟩ history fds

/-- The step opened the descriptor. -/
def FdReturn.opens (fd : UInt64) : FdReturn → Bool
  | .vfsOpen _ _ (.ok other) => other = fd
  | _ => false

/-- The step closed the descriptor successfully. -/
def FdReturn.closes (fd : UInt64) : FdReturn → Bool
  | .vfsClose other (.ok _) => other = fd
  | _ => false

/-- The step ended a close of the descriptor, with any result. -/
def FdReturn.attempts (fd : UInt64) : FdReturn → Bool
  | .vfsClose other _ => other = fd
  | _ => false

def FdReturn.event? : FdReturn → Option (OwnershipEvent UInt64 (List UInt8))
  | .vfsOpen path _ (.ok fd) => some (.claim fd path)
  | .vfsClose fd (.ok _) => some (.release fd)
  | .vfsOpen _ _ (.error _) | .vfsClose _ (.error _) => none

variable {ι : Type} {history before middle after : FdHistory ι} {fds : FdThreads ι} {table next : FdTable}
  {files : OpenFiles} {fd : UInt64} {location ahead : FdLocation} {returned : Option FdReturn}

/-- The successful steps as claims and releases of descriptors. -/
def fdEvents (history : FdHistory ι) : List (OwnershipEvent UInt64 (List UInt8)) :=
  history.filterMap fun step => step.label.2.bind FdReturn.event?

/-- How many steps of the stretch return what is asked for. -/
def countReturns (kind : FdReturn → Bool) (stretch : FdHistory ι) : Nat := stretch.countP (·.label.2.any kind)

theorem countReturns_opens (stretch : FdHistory ι) :
    (fdEvents stretch).countP (·.claims fd) = countReturns (·.opens fd) stretch := by
  rw [fdEvents, List.countP_filterMap, countReturns]
  congr 1
  funext step
  rcases step.label.2 with _ | ⟨path, mode, _ | _⟩ | ⟨other, _ | _⟩ <;> rfl

theorem countReturns_closes (stretch : FdHistory ι) :
    (fdEvents stretch).countP (·.releases fd) = countReturns (·.closes fd) stretch := by
  rw [fdEvents, List.countP_filterMap, countReturns]
  congr 1
  funext step
  rcases step.label.2 with _ | ⟨path, mode, _ | _⟩ | ⟨other, _ | _⟩ <;> rfl

/-- What one step of a caller can do to the table: nothing, a claim of a free
slot, or a swap that releases a held one. -/
inductive FdCase (table : FdTable) (files : OpenFiles) : Option FdReturn → FdTable → Prop
  | aside {reply} : reply.bind FdReturn.event? = none →
      (∀ fd, reply.any (FdReturn.attempts fd) = true → files fd = none) → FdCase table files reply table
  | opened {path mode} (cell : Fin fdTableSize) : UserFd (UInt64.ofNat cell.val) → files (UInt64.ofNat cell.val) = none →
      FdCase table files (some (.vfsOpen path mode (.ok (UInt64.ofNat cell.val))))
        (Function.update table cell (bindingKindForPath path))
  | closed (cell : Fin fdTableSize) : UserFd (UInt64.ofNat cell.val) → files (UInt64.ofNat cell.val) ≠ none →
      FdCase table files (some (.vfsClose (UInt64.ofNat cell.val) (.ok ()))) (Function.update table cell .free)

/-- Only a user descriptor gets past the entry of `vfs_close`. -/
theorem FdCall.enter_case (refines : Refines table files) (call : FdCall) : FdCase table files call.enter.2 table := by
  cases call with
  | vfsOpen path mode =>
    dsimp only [FdCall.enter]
    split_ifs
    · exact .aside rfl fun fd attempted => by cases attempted
    · exact .aside rfl fun fd attempted => by cases attempted
    · exact .aside rfl fun fd attempted => by cases attempted
  | vfsClose fd =>
    have unopened (refused : ¬ UserFd fd) : files fd = none := by
      by_contra found
      exact refused (refines.user fd found)
    dsimp only [FdCall.enter]
    split_ifs with reserved range
    · refine .aside rfl fun other attempted => ?_
      rw [← of_decide_eq_true attempted]
      exact unopened fun user => UInt64.not_le.mpr user.1 reserved
    · exact .aside rfl fun other attempted => by cases attempted
    · refine .aside rfl fun other attempted => ?_
      rw [← of_decide_eq_true attempted]
      exact unopened fun user => range user.2

theorem FdLocation.advance_case (refines : Refines table files)
    (moved : location.advance table = some (next, ahead, returned)) : FdCase table files returned next := by
  cases location with
  | idle => cases moved
  | scan path mode rest user =>
    cases rest with
    | nil =>
      cases moved
      exact .aside rfl fun fd attempted => by cases attempted
    | cons cell rest =>
      have userCell := mem_userFds.mp (user cell (List.mem_cons_self ..))
      by_cases free : table cell = .free
      · rw [FdLocation.advance, if_pos free] at moved
        cases moved
        exact .opened cell userCell ((refines.cell_free_iff userCell).mp free)
      · rw [FdLocation.advance, if_neg free] at moved
        cases moved
        exact .aside rfl fun fd attempted => by cases attempted
  | swap fd user =>
    obtain ⟨cell, rfl⟩ := user.exists_cell
    have index : (⟨(UInt64.ofNat cell.val).toNat, user.2⟩ : Fin fdTableSize) = cell := Fin.ext (toNat_cell cell)
    rw [FdLocation.advance, index] at moved
    by_cases free : table cell = .free
    · rw [if_pos free, ← free, Function.update_eq_self] at moved
      cases moved
      refine .aside rfl fun fd attempted => ?_
      rw [← of_decide_eq_true attempted]
      exact (refines.cell_free_iff user).mp free
    · rw [if_neg free] at moved
      cases moved
      exact .closed cell user fun unopened => free ((refines.cell_free_iff user).mpr unopened)

theorem FdCallerStep.case (step : FdCallerStep table location returned next ahead) (refines : Refines table files) :
    FdCase table files returned next := by
  cases step with
  | enter call => exact call.enter_case refines
  | atomic moved => exact FdLocation.advance_case refines moved

theorem fdEvents_next (history : FdHistory ι) (step : Transition (FdThreads ι) (ι × Option FdReturn)) :
    fdEvents (history ++ [step]) = fdEvents history ++ (step.label.2.bind FdReturn.event?).toList := by
  rw [fdEvents, List.filterMap_append, filterMap_single]
  rfl

theorem fdEvents_around {step : Transition (FdThreads ι) (ι × Option FdReturn)} {path : List UInt8} {mode : UInt32}
    (opened : step.label.2 = some (.vfsOpen path mode (.ok fd))) (before middle : FdHistory ι) :
    fdEvents (before ++ step :: middle) = fdEvents before ++ .claim fd path :: fdEvents middle := by
  simp [fdEvents, opened, FdReturn.event?]

theorem countReturns_append (kind : FdReturn → Bool) (left right : FdHistory ι) :
    countReturns kind (left ++ right) = countReturns kind left + countReturns kind right := List.countP_append

theorem countReturns_cons (kind : FdReturn → Bool) (step : Transition (FdThreads ι) (ι × Option FdReturn))
    (rest : FdHistory ι) :
    countReturns kind (step :: rest) = countReturns kind rest + if step.label.2.any kind then 1 else 0 :=
  List.countP_cons

theorem closes_le_attempts (stretch : FdHistory ι) :
    countReturns (·.closes fd) stretch ≤ countReturns (·.attempts fd) stretch := by
  refine List.countP_mono_left fun step _ closed => ?_
  rcases found : step.label.2 with _ | ⟨path, mode, _ | _⟩ | ⟨other, _ | _⟩
  all_goals
    rw [found] at closed
    first | exact closed | cases closed

variable [DecidableEq ι]

/-- Along every interleaving the slots hold what their owners opened, and the
successful steps respect ownership. -/
theorem FdRun.owners (run : FdRun history fds) :
    Refines fds.shared (Library.owners (fdEvents history)) ∧ Exclusive (fdEvents history) := by
  induction run with
  | start => exact ⟨Refines.initial, Exclusive.nil⟩
  | @next history fds label after _ step ih =>
    obtain ⟨refines, exclusive⟩ := ih
    rw [fdEvents_next]
    have effect := step.act_shared.case refines
    generalize label.2 = returned at effect
    generalize after.shared = table at effect
    cases effect with
    | aside silent _ =>
      rw [silent, Option.toList_none, List.append_nil]
      exact ⟨refines, exclusive⟩
    | @opened path mode cell user free =>
      refine ⟨?_, exclusive.snoc free⟩
      rw [Option.bind_some, FdReturn.event?, Option.toList_some, owners_snoc]
      exact refines.update user (some path)
    | closed cell user held =>
      refine ⟨?_, exclusive.snoc held⟩
      rw [Option.bind_some, FdReturn.event?, Option.toList_some, owners_snoc]
      exact refines.update user none

/-- A close that fails found the descriptor without an owner. -/
theorem FdRun.refused_close (run : FdRun history fds) {step : Transition (FdThreads ι) (ι × Option FdReturn)}
    (recorded : history = before ++ step :: after) (attempted : step.label.2.any (FdReturn.attempts fd) = true)
    (refused : step.label.2.any (FdReturn.closes fd) = false) : Library.owners (fdEvents before) fd = none := by
  obtain ⟨earlier, taken⟩ := run.split recorded
  obtain ⟨refines, -⟩ := FdRun.owners earlier
  have effect := taken.act_shared.case refines
  generalize step.label.2 = returned at effect attempted refused
  generalize step.after.shared = table at effect
  cases effect with
  | aside _ unopened => exact unopened fd attempted
  | opened => cases attempted
  | closed => cases attempted.symm.trans refused

theorem FdRun.exclusive_upTo (run : FdRun (history ++ after) fds) : Exclusive (fdEvents history) := by
  have whole := (FdRun.owners run).2
  rw [fdEvents, List.filterMap_append] at whole
  exact whole.left

/-- Behind an open, until the descriptor is opened again, the closes that
succeed and the owner that is left are one together. -/
theorem FdRun.closed_or_owned (run : FdRun history fds) {step : Transition (FdThreads ι) (ι × Option FdReturn)}
    {path : List UInt8} {mode : UInt32} (recorded : history = before ++ step :: (middle ++ after))
    (opened : step.label.2 = some (.vfsOpen path mode (.ok fd)))
    (unopened : countReturns (·.opens fd) middle = 0) :
    countReturns (·.closes fd) middle +
      (Library.owners (fdEvents (before ++ step :: middle)) fd).toList.length = 1 := by
  rw [← List.cons_append, ← List.append_assoc] at recorded
  subst recorded
  have exclusive := FdRun.exclusive_upTo run
  rw [fdEvents_around opened] at exclusive ⊢
  rw [← countReturns_closes]
  exact exclusive.released_or_held (by rw [countReturns_opens, unopened])

/-- Until the descriptor is opened again one close succeeds as soon as any is
attempted, and no second one does. -/
theorem FdRun.closes_eq_min (run : FdRun history fds) {step : Transition (FdThreads ι) (ι × Option FdReturn)}
    {path : List UInt8} {mode : UInt32} (recorded : history = before ++ step :: (middle ++ after))
    (opened : step.label.2 = some (.vfsOpen path mode (.ok fd)))
    (unopened : countReturns (·.opens fd) middle = 0) :
    countReturns (·.closes fd) middle = min 1 (countReturns (·.attempts fd) middle) := by
  have once := FdRun.closed_or_owned run recorded opened unopened
  have fewer := @closes_le_attempts ι fd middle
  by_cases attempted : countReturns (·.attempts fd) middle = 0
  · omega
  · obtain ⟨attempt, member, found⟩ := List.countP_pos_iff.mp (Nat.pos_of_ne_zero attempted)
    obtain ⟨left, right, rfl⟩ := List.append_of_mem member
    rw [countReturns_append, countReturns_cons] at unopened fewer once ⊢
    by_cases closed : attempt.label.2.any (·.closes fd) = true
    · rw [if_pos closed] at once fewer ⊢
      omega
    · -- A close that fails comes behind the one that succeeded.
      have split : history = (before ++ step :: left) ++ attempt :: (right ++ after) := by rw [recorded]; simp
      have unowned := FdRun.refused_close run split found (by simpa using closed)
      have earlier := FdRun.closed_or_owned run (by rw [split, List.append_assoc]; rfl) opened
        (by omega : countReturns (·.opens fd) left = 0)
      rw [unowned, Option.toList_none, List.length_nil] at earlier
      omega

theorem opens_iff : returned.any (·.opens fd) = true ↔ ∃ path mode, returned = some (.vfsOpen path mode (.ok fd)) := by
  constructor
  · intro opened
    rcases returned with _ | ⟨path, mode, _ | other⟩ | ⟨other, reply⟩
    · cases opened
    · cases opened
    · rw [← of_decide_eq_true opened]
      exact ⟨path, mode, rfl⟩
    · cases opened
  · rintro ⟨path, mode, rfl⟩
    exact decide_eq_true rfl

theorem opens_of_claim {path : List UInt8} (found : returned.bind FdReturn.event? = some (.claim fd path)) :
    returned.any (·.opens fd) = true := by
  rcases returned with _ | ⟨other, mode, _ | _⟩ | ⟨other, _ | _⟩
  · cases found
  · cases found
  · cases found
    exact decide_eq_true rfl
  · cases found
  · cases found

/-- For every interleaving of any callers: between two successive opens of a
descriptor exactly one close of it succeeds; behind an open the first close
succeeds and no other until the next open; and a slot holds the kind of the
open that owns it, or is free for want of an owner. -/
theorem FdRun.one_owner_at_a_time (run : FdRun history fds) (fd : UInt64) :
    (∀ before first middle second after, history = before ++ first :: (middle ++ second :: after) →
      first.label.2.any (·.opens fd) = true → second.label.2.any (·.opens fd) = true →
      countReturns (·.opens fd) middle = 0 → countReturns (·.closes fd) middle = 1) ∧
    (∀ before first middle after, history = before ++ first :: (middle ++ after) →
      first.label.2.any (·.opens fd) = true → countReturns (·.opens fd) middle = 0 →
      countReturns (·.closes fd) middle = min 1 (countReturns (·.attempts fd) middle)) ∧
    (∀ before first after path mode, history = before ++ first :: after →
      first.label.2 = some (.vfsOpen path mode (.ok fd)) → countReturns (·.closes fd) after = 0 →
      fds.shared.load fd = some (bindingKindForPath path)) ∧
    (UserFd fd → fds.shared.load fd ≠ some .free →
      ∃ before first after, history = before ++ first :: after ∧ first.label.2.any (·.opens fd) = true ∧
        countReturns (·.closes fd) after = 0) := by
  obtain ⟨refines, exclusive⟩ := FdRun.owners run
  refine ⟨?_, ?_, ?_, ?_⟩
  · intro before first middle second after recorded opened reopened unopened
    obtain ⟨path, mode, opened⟩ := opens_iff.mp opened
    obtain ⟨next, nextMode, reopened⟩ := opens_iff.mp reopened
    rw [recorded, fdEvents_around opened, fdEvents_around reopened] at exclusive
    rw [← countReturns_closes]
    exact exclusive.one_release_between (by rw [countReturns_opens, unopened])
  · intro before first middle after recorded opened unopened
    obtain ⟨path, mode, opened⟩ := opens_iff.mp opened
    exact FdRun.closes_eq_min run recorded opened unopened
  · intro before first after path mode recorded opened unclosed
    rw [recorded, fdEvents_around opened] at exclusive refines
    have held := exclusive.still_held (by rw [countReturns_closes, unclosed])
    have user := refines.user fd (by rw [held]; simp)
    rw [refines.bound fd user, held, boundKind]
  · intro user bound
    have held : Library.owners (fdEvents history) fd ≠ none := by
      intro unowned
      rw [refines.bound fd user, unowned] at bound
      exact bound rfl
    obtain ⟨before, path, after, recorded, unreleased⟩ := owned_iff.mp held
    obtain ⟨before, first, after, rfl, rfl, opened, rfl⟩ := filterMap_split recorded
    refine ⟨before, first, after, rfl, ?_, by rw [← countReturns_closes]; exact unreleased⟩
    exact opens_of_claim opened

/-- Two callers close one descriptor at once, and the one that did not open it
is faster. -/
theorem one_owner_at_a_time_rivals : ∃ (middle : FdHistory Bool) (history : FdHistory Bool) (fds : FdThreads Bool),
    FdRun history fds ∧ middle <:+ history ∧ countReturns (·.attempts 3) middle = 2 ∧
      countReturns (·.closes 3) middle = 1 ∧ fds.shared.load 3 = some .free := by
  have user : UserFd 3 := ⟨by decide, by decide⟩
  let held := Function.update FdTable.initial ⟨3, by decide⟩ .devNull
  have claims : FdCallerStep FdTable.initial (.scan devNullPath oRdonly userFds fun _ member => member)
      (some (.vfsOpen devNullPath oRdonly (.ok 3))) held .idle := .atomic rfl
  have closes : FdCallerStep held (.swap 3 user) (some (.vfsClose 3 (.ok ())))
      (Function.update held ⟨3, by decide⟩ .free) .idle := .atomic rfl
  have refused : FdCallerStep (Function.update held ⟨3, by decide⟩ .free) (.swap 3 user)
      (some (.vfsClose 3 (.error .invalidFd)))
      (Function.update (Function.update held ⟨3, by decide⟩ .free) ⟨3, by decide⟩ .free) .idle := .atomic rfl
  let begun : FdThreads Bool := ⟨FdTable.initial, fun _ => .idle⟩
  have idle : FdRun [] begun := .start
  have entered := idle.next (.act (i := true) (.enter (.vfsOpen devNullPath oRdonly)))
  have opened := entered.next (.act (i := true) claims)
  have first := opened.next (.act (i := true) (show FdCallerStep _ .idle _ _ _ from .enter (.vfsClose 3)))
  have second := first.next (.act (i := false) (show FdCallerStep _ .idle _ _ _ from .enter (.vfsClose 3)))
  have closed := second.next (.act (i := false) closes)
  have last := closed.next (.act (i := true) refused)
  have once := (FdRun.one_owner_at_a_time last 3).2.1 [_] _ [_, _, _, _] [] rfl rfl rfl
  exact ⟨_, _, _, last, ⟨[_, _], rfl⟩, rfl, once, rfl⟩

end Asolaria.Vfs
