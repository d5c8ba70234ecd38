import Asolaria.Library.Guard
import Asolaria.Library.Ownership
import Asolaria.Library.Run
import Asolaria.Vfs.FdTable
import Mathlib.Data.List.FinRange

namespace Asolaria.Vfs
open Library Envelope

/-- What the four functions act on: the descriptor table, and the bus slot
behind the descriptors of the bus path. -/
structure VfsState where
  slot : Slot
  table : FdTable

/-- A call with its result. A read shows the buffer it was given and the one
it leaves behind. -/
inductive VfsLabel
  | vfsOpen (path : List UInt8) (mode : UInt32) (reply : Except VfsErr UInt64)
  | vfsClose (fd : UInt64) (reply : Except VfsErr Unit)
  | vfsRead (fd : UInt64) (given : List UInt8) (len : Nat) (reply : Except VfsErr Nat) (buf : List UInt8)
  | vfsWrite (fd : UInt64) (buf : List UInt8) (reply : Except VfsErr Nat)

def VfsLabel.failed : VfsLabel → Bool
  | .vfsOpen _ _ reply => !reply.isOk
  | .vfsClose _ reply => !reply.isOk
  | .vfsRead _ _ _ reply _ | .vfsWrite _ _ reply => !reply.isOk

inductive VfsStep (s : VfsState) : VfsLabel → VfsState → Prop
  | vfsOpen (path : List UInt8) (mode : UInt32) :
      VfsStep s (.vfsOpen path mode (vfsOpen s.table path mode).1) { s with table := (vfsOpen s.table path mode).2 }
  | vfsClose (fd : UInt64) :
      VfsStep s (.vfsClose fd (vfsClose s.table fd).1) { s with table := (vfsClose s.table fd).2 }
  | vfsRead (fd : UInt64) (buf : List UInt8) (len : Nat) :
      VfsStep s (.vfsRead fd buf len (vfsRead s.slot s.table fd buf len).1 (vfsRead s.slot s.table fd buf len).2.1)
        { s with slot := (vfsRead s.slot s.table fd buf len).2.2 }
  | vfsWrite (fd : UInt64) (buf : List UInt8) :
      VfsStep s (.vfsWrite fd buf (vfsWrite s.slot s.table fd buf).1)
        { s with slot := (vfsWrite s.slot s.table fd buf).2 }

abbrev VfsHistory := List (Transition VfsState VfsLabel)

/-- Any sequence of calls from the empty table, over any slot. -/
abbrev VfsRun (slot : Slot) (history : VfsHistory) (s : VfsState) : Prop :=
  Run VfsStep ⟨slot, FdTable.initial⟩ history s

/-- The descriptors the table hands out. -/
def UserFd (fd : UInt64) : Prop := reservedFdMax < fd ∧ fd.toNat < fdTableSize

instance (fd : UInt64) : Decidable (UserFd fd) := inferInstanceAs (Decidable (_ ∧ _))

/-- The abstract table: the path of the open that returned the descriptor. -/
abbrev OpenFiles := UInt64 → Option (List UInt8)

def VfsLabel.event? : VfsLabel → Option (OwnershipEvent UInt64 (List UInt8))
  | .vfsOpen path _ (.ok fd) => some (.claim fd path)
  | .vfsClose fd (.ok ()) => some (.release fd)
  | _ => none

def vfsEvents (history : VfsHistory) : List (OwnershipEvent UInt64 (List UInt8)) :=
  history.filterMap fun call => call.label.event?

/-- The descriptors that were opened and not closed since, from the replies alone. -/
def openFiles (history : VfsHistory) : OpenFiles := owners (vfsEvents history)

/-- The state byte an open of the path leaves in the slot. -/
def boundKind : Option (List UInt8) → FdState
  | none => .free
  | some path => bindingKindForPath path

/-- The table is the abstract one with every path replaced by its kind. -/
structure Refines (table : FdTable) (files : OpenFiles) : Prop where
  bound : ∀ fd, UserFd fd → table.load fd = some (boundKind (files fd))
  user : ∀ fd, files fd ≠ none → UserFd fd

/-- The arguments `vfs_open` does not reject. -/
def ValidOpen (path : List UInt8) (mode : UInt32) : Prop := path ≠ [] ∧ mode ≠ 0 ∧ mode &&& ~~~modeMask = 0

/-- The lowest descriptor that is not open. -/
structure LeastFree (files : OpenFiles) (fd : UInt64) : Prop where
  user : UserFd fd
  free : files fd = none
  least : ∀ other, UserFd other → files other = none → fd ≤ other

/-- Reading by path: the null device is at its end, the bus hands out its
envelope, and nothing else can be read. -/
def readByPath (slot : Slot) (path : Option (List UInt8)) (buf : List UInt8) (len : Nat) :
    Except VfsErr Nat × List UInt8 × Slot :=
  if len > buf.length then (.error .lenExceedsBuf, buf, slot)
  else if path = some devNullPath then (.ok 0, buf, slot)
  else if path = some busEnvelopePath then
    let (reply, lent, after) := dispatchDequeueBytes slot (buf.take len) 0
    (reply.mapError readErr, lent ++ buf.drop len, after)
  else (.error .invalidFd, buf, slot)

/-- Writing by path: the null device swallows, the bus takes an envelope. -/
def writeByPath (slot : Slot) (path : Option (List UInt8)) (buf : List UInt8) : Except VfsErr Nat × Slot :=
  if buf.isEmpty then (.error .invalidBuf, slot)
  else if path = some devNullPath then (.ok buf.length, slot)
  else if path = some busEnvelopePath then
    let (reply, after) := dispatchEnqueueBytes slot buf 0
    ((reply.mapError writeErr).map fun _ => buf.length, after)
  else (.error .invalidFd, slot)

variable {slot : Slot} {table : FdTable} {files : OpenFiles} {fd : UInt64} {path buf : List UInt8} {len : Nat}
  {mode : UInt32}

theorem boundKind_free_iff {path : Option (List UInt8)} : boundKind path = .free ↔ path = none := by
  cases path with
  | none => simp [boundKind]
  | some path =>
    simp only [boundKind, bindingKindForPath, reduceCtorEq, iff_false]
    split_ifs <;> simp

theorem Refines.initial : Refines FdTable.initial fun _ => none := by
  refine ⟨fun fd user => ?_, fun fd found => absurd rfl found⟩
  rw [FdTable.load, dif_pos user.2]
  rfl

theorem reservedFdMax_lt_iff : reservedFdMax < fd ↔ 3 ≤ fd.toNat := by
  rw [UInt64.lt_iff_toNat_lt]
  show 2 < fd.toNat ↔ _
  omega

theorem toNat_cell (cell : Fin fdTableSize) : (UInt64.ofNat cell.val).toNat = cell.val := by
  have bound : cell.val < 256 := cell.isLt
  rw [UInt64.toNat_ofNat']
  omega

/-- The slots of the scan are those of the descriptors handed out. -/
theorem mem_userFds {cell : Fin fdTableSize} : cell ∈ userFds ↔ UserFd (UInt64.ofNat cell.val) := by
  rw [UserFd, reservedFdMax_lt_iff, toNat_cell, and_iff_left cell.isLt, userFds, List.mem_drop_iff_getElem]
  constructor
  · rintro ⟨i, bound, rfl⟩
    simp only [List.getElem_finRange, Fin.val_cast]
    show 3 ≤ 2 + 1 + i
    omega
  · intro low
    refine ⟨cell.val - 3, ?_, ?_⟩
    · have bound := cell.isLt
      simp only [List.length_finRange]
      show cell.val - 3 + 3 < fdTableSize
      omega
    · apply Fin.ext
      simp only [List.getElem_finRange, Fin.val_cast]
      show 2 + 1 + (cell.val - 3) = cell.val
      omega

theorem userFds_sorted : userFds.Pairwise (· < ·) := (List.pairwise_lt_finRange _).drop

theorem load_cell (cell : Fin fdTableSize) : table.load (UInt64.ofNat cell.val) = some (table cell) := by
  have range : (UInt64.ofNat cell.val).toNat < fdTableSize := by rw [toNat_cell]; exact cell.isLt
  rw [FdTable.load, dif_pos range]
  congr 2
  exact Fin.ext (toNat_cell cell)

theorem UserFd.exists_cell (user : UserFd fd) : ∃ cell : Fin fdTableSize, fd = UInt64.ofNat cell.val :=
  ⟨⟨fd.toNat, user.2⟩, UInt64.ofNat_toNat.symm⟩

theorem Refines.cell_eq (refines : Refines table files) {cell : Fin fdTableSize}
    (user : UserFd (UInt64.ofNat cell.val)) : table cell = boundKind (files (UInt64.ofNat cell.val)) := by
  have bound := refines.bound _ user
  rw [load_cell] at bound
  exact Option.some.inj bound

theorem Refines.cell_free_iff (refines : Refines table files) {cell : Fin fdTableSize}
    (user : UserFd (UInt64.ofNat cell.val)) : table cell = .free ↔ files (UInt64.ofNat cell.val) = none := by
  rw [refines.cell_eq user, boundKind_free_iff]

theorem load_update_cell (cell : Fin fdTableSize) (kind : FdState) (fd : UInt64) :
    FdTable.load (Function.update table cell kind) fd =
      if fd = UInt64.ofNat cell.val then some kind else table.load fd := by
  by_cases same : fd = UInt64.ofNat cell.val
  · rw [if_pos same, same, load_cell, Function.update_self]
  · rw [if_neg same, FdTable.load, FdTable.load]
    split
    · next range =>
      have other : (⟨fd.toNat, range⟩ : Fin fdTableSize) ≠ cell := by
        intro equal
        apply same
        rw [← equal]
        exact UInt64.ofNat_toNat.symm
      rw [Function.update_of_ne other]
    · rfl

/-- Replacing one slot by the kind of a path is the same as opening that
descriptor, replacing it by FREE the same as closing it. -/
theorem Refines.update (refines : Refines table files) {cell : Fin fdTableSize}
    (user : UserFd (UInt64.ofNat cell.val)) (path : Option (List UInt8)) :
    Refines (Function.update table cell (boundKind path)) (Function.update files (UInt64.ofNat cell.val) path) := by
  refine ⟨fun fd userFd => ?_, fun fd found => ?_⟩
  · rw [load_update_cell]
    by_cases same : fd = UInt64.ofNat cell.val
    · rw [if_pos same, same, Function.update_self]
    · rw [if_neg same, Function.update_of_ne same]
      exact refines.bound fd userFd
  · by_cases same : fd = UInt64.ofNat cell.val
    · rwa [same]
    · rw [Function.update_of_ne same] at found
      exact refines.user fd found

theorem vfsIsOpen_iff (refines : Refines table files) :
    vfsIsOpen table fd = true ↔ fd ≤ reservedFdMax ∨ files fd ≠ none := by
  by_cases reserved : fd ≤ reservedFdMax
  · simp [vfsIsOpen, reserved]
  · by_cases range : fd.toNat < fdTableSize
    · have user : UserFd fd := ⟨UInt64.not_le.mp reserved, range⟩
      simp [vfsIsOpen, reserved, refines.bound fd user, boundKind_free_iff]
    · have unopened : files fd = none := by
        by_contra found
        exact range (refines.user fd found).2
      simp [vfsIsOpen, reserved, FdTable.load, range, unopened]

/-- Every result of `vfs_open` over the abstract table. -/
inductive OpenCase (table : FdTable) (files : OpenFiles) (path : List UInt8) (mode : UInt32) :
    Except VfsErr UInt64 × FdTable → Prop
  | invalid {error} : ¬ ValidOpen path mode → error ≠ .tableFull → OpenCase table files path mode (.error error, table)
  | full : ValidOpen path mode → (∀ fd, UserFd fd → files fd ≠ none) →
      OpenCase table files path mode (.error .tableFull, table)
  | opened (cell : Fin fdTableSize) : ValidOpen path mode → LeastFree files (UInt64.ofNat cell.val) →
      OpenCase table files path mode
        (.ok (UInt64.ofNat cell.val), Function.update table cell (bindingKindForPath path))

theorem vfsOpen_case (refines : Refines table files) (path : List UInt8) (mode : UInt32) :
    OpenCase table files path mode (vfsOpen table path mode) := by
  unfold vfsOpen
  split
  · next empty => exact .invalid (fun valid => valid.1 (by simpa using empty)) (by simp)
  · next present =>
    split
    · next bad => exact .invalid (fun valid => bad.elim valid.2.1 fun bits => bits valid.2.2) (by simp)
    · next good =>
      have valid : ValidOpen path mode := ⟨by simpa using present, not_or.mp good |>.imp_right not_not.mp⟩
      rcases openFirst_first table (bindingKindForPath path) userFds with ⟨full, taken⟩ | first
      · rw [full]
        refine .full valid fun fd user => ?_
        obtain ⟨cell, rfl⟩ := user.exists_cell
        exact fun free => taken cell (mem_userFds.mpr user) ((refines.cell_free_iff user).mpr free)
      · obtain ⟨before, cell, after, split, taken, free, found⟩ := first
        have member : cell ∈ userFds := by simp [split]
        have user := mem_userFds.mp member
        rw [found]
        refine .opened cell valid ⟨user, (refines.cell_free_iff user).mp free, fun other userOther unopened => ?_⟩
        obtain ⟨otherCell, rfl⟩ := userOther.exists_cell
        have placed : otherCell ∈ before ++ cell :: after := by
          rw [← split]
          exact mem_userFds.mpr userOther
        have sorted := userFds_sorted
        rw [split, List.pairwise_append] at sorted
        rw [UInt64.le_iff_toNat_le, toNat_cell, toNat_cell]
        rcases List.mem_append.mp placed with earlier | later
        · exact absurd ((refines.cell_free_iff userOther).mpr unopened) (taken otherCell earlier)
        · rcases List.mem_cons.mp later with rfl | later
          · exact Nat.le_refl _
          · exact Nat.le_of_lt ((List.pairwise_cons.mp sorted.2.1).1 otherCell later)

/-- Every result of `vfs_close` over the abstract table. -/
inductive CloseCase (table : FdTable) (files : OpenFiles) (fd : UInt64) : Except VfsErr Unit × FdTable → Prop
  | refused {error} : files fd = none → CloseCase table files fd (.error error, table)
  | closed (cell : Fin fdTableSize) : fd = UInt64.ofNat cell.val → files fd ≠ none →
      CloseCase table files fd (.ok (), Function.update table cell .free)

theorem vfsClose_case (refines : Refines table files) (fd : UInt64) : CloseCase table files fd (vfsClose table fd) := by
  by_cases user : UserFd fd
  · obtain ⟨cell, rfl⟩ := user.exists_cell
    have range : (UInt64.ofNat cell.val).toNat < fdTableSize := user.2
    have index : (⟨(UInt64.ofNat cell.val).toNat, range⟩ : Fin fdTableSize) = cell := Fin.ext (toNat_cell cell)
    rw [vfsClose, if_neg (UInt64.not_le.mpr user.1), dif_pos range, index]
    by_cases free : table cell = .free
    · -- The swap of a free slot stores what was there.
      rw [if_pos free, ← free, Function.update_eq_self]
      exact .refused ((refines.cell_free_iff user).mp free)
    · rw [if_neg free]
      exact .closed cell rfl (fun unopened => free ((refines.cell_free_iff user).mpr unopened))
  · have unopened : files fd = none := by
      by_contra found
      exact user (refines.user fd found)
    unfold vfsClose
    split
    · exact .refused unopened
    · next above =>
      rw [dif_neg fun range => user ⟨UInt64.not_le.mp above, range⟩]
      exact .refused unopened

/-- Above the reserved descriptors a lookup finds the kind of the path, and
what is not open looks free or lies past the table. -/
theorem Refines.load_case (refines : Refines table files) (above : reservedFdMax < fd) :
    table.load fd = some (boundKind (files fd)) ∨ table.load fd = none ∧ files fd = none := by
  by_cases range : fd.toNat < fdTableSize
  · exact .inl (refines.bound fd ⟨above, range⟩)
  · refine .inr ⟨by rw [FdTable.load, dif_neg range], ?_⟩
    by_contra found
    exact range (refines.user fd found).2

theorem not_standard (above : reservedFdMax < fd) : fd ≠ stdinFd ∧ fd ≠ stdoutFd ∧ fd ≠ stderrFd := by
  refine ⟨?_, ?_, ?_⟩ <;>
  · rintro rfl
    revert above
    decide

/-- The three kinds of paths a descriptor can have been opened for, beside
not being open. -/
theorem boundKind_case (path : Option (List UInt8)) :
    path = some devNullPath ∧ boundKind path = .devNull ∨
    path ≠ some devNullPath ∧ path = some busEnvelopePath ∧ boundKind path = .busEnvelope ∨
    path ≠ some devNullPath ∧ path ≠ some busEnvelopePath ∧ (boundKind path = .free ∨ boundKind path = .unbacked) := by
  cases path with
  | none => exact .inr (.inr ⟨by simp, by simp, .inl rfl⟩)
  | some path =>
    simp only [Option.some.injEq, ne_eq]
    by_cases null : path = devNullPath
    · exact .inl ⟨null, if_pos null⟩
    · by_cases bus : path = busEnvelopePath
      · exact .inr (.inl ⟨null, bus, (if_neg null).trans (if_pos bus)⟩)
      · exact .inr (.inr ⟨null, bus, .inr ((if_neg null).trans (if_neg bus))⟩)

/-- What is done by the kind of a descriptor is done by the path of its open. -/
theorem Refines.by_kind {β : Type} (refines : Refines table files) (above : reservedFdMax < fd) (null bus other : β) :
    (match table.load fd with
      | none | some .free | some .unbacked => other
      | some .devNull => null
      | some .busEnvelope => bus) =
      if files fd = some devNullPath then null else if files fd = some busEnvelopePath then bus else other := by
  rcases refines.load_case above with found | ⟨missing, unopened⟩
  · rw [found]
    rcases boundKind_case (files fd) with ⟨isNull, kind⟩ | ⟨notNull, isBus, kind⟩ | ⟨notNull, notBus, kind | kind⟩
    · rw [kind, if_pos isNull]
    · rw [kind, if_neg notNull, if_pos isBus]
    · rw [kind, if_neg notNull, if_neg notBus]
    · rw [kind, if_neg notNull, if_neg notBus]
  · rw [missing, unopened, if_neg (by simp), if_neg (by simp)]

/-- A read above the reserved descriptors goes by the path of the open. -/
theorem vfsRead_eq (refines : Refines table files) (above : reservedFdMax < fd) :
    vfsRead slot table fd buf len = readByPath slot (files fd) buf len := by
  obtain ⟨notIn, notOut, notErr⟩ := not_standard above
  rw [vfsRead, if_neg notIn, if_neg (not_or.mpr ⟨notOut, notErr⟩), readByPath]
  congr 1
  exact refines.by_kind above _ _ _

theorem vfsWrite_eq (refines : Refines table files) (above : reservedFdMax < fd) :
    vfsWrite slot table fd buf = writeByPath slot (files fd) buf := by
  obtain ⟨notIn, notOut, notErr⟩ := not_standard above
  rw [vfsWrite, if_neg (not_or.mpr ⟨notOut, notErr⟩), if_neg notIn, writeByPath]
  congr 1
  exact refines.by_kind above _ _ _

variable {s after : VfsState} {label : VfsLabel} {history : VfsHistory}

theorem openFiles_next (history : VfsHistory) (s : VfsState) (label : VfsLabel) (after : VfsState) :
    openFiles (history ++ [⟨s, label, after⟩]) =
      (label.event?.map fun event => event.record (openFiles history)).getD (openFiles history) := by
  rw [openFiles, vfsEvents, List.filterMap_append, filterMap_single]
  cases label.event? with
  | none => simp [openFiles, vfsEvents]
  | some event => exact owners_snoc

/-- One call keeps the table and the abstract one together. -/
theorem VfsStep.refines (step : VfsStep s label after) (refines : Refines s.table files) :
    Refines after.table ((label.event?.map fun event => event.record files).getD files) := by
  cases step with
  | vfsOpen path mode =>
    have reached := vfsOpen_case refines path mode
    generalize Vfs.vfsOpen s.table path mode = outcome at reached
    cases reached with
    | invalid | full => exact refines
    | opened cell valid least => exact refines.update least.user (some path)
  | vfsClose fd =>
    have reached := vfsClose_case refines fd
    generalize Vfs.vfsClose s.table fd = outcome at reached
    cases reached with
    | refused => exact refines
    | closed cell same found =>
      subst same
      exact refines.update (refines.user _ found) none
  | vfsRead | vfsWrite => exact refines

theorem VfsRun.refines {first : Slot} (run : VfsRun first history s) : Refines s.table (openFiles history) := by
  induction run with
  | start => exact Refines.initial
  | @next history s label after _ step ih =>
    rw [openFiles_next]
    exact step.refines ih

/-- What a caller may expect of one call, by the abstract table in front of it. -/
structure FdContract (files : OpenFiles) (call : Transition VfsState VfsLabel) : Prop where
  opens : ∀ path mode reply, call.label = .vfsOpen path mode reply →
    (∀ fd, reply = .ok fd ↔ ValidOpen path mode ∧ LeastFree files fd) ∧
    (reply = .error .tableFull ↔ ValidOpen path mode ∧ ∀ fd, UserFd fd → files fd ≠ none)
  binds : ∀ path mode fd, call.label = .vfsOpen path mode (.ok fd) → ∀ other,
    call.after.table.load other = if other = fd then some (bindingKindForPath path) else call.before.table.load other
  closes : ∀ fd reply, call.label = .vfsClose fd reply → (reply = .ok () ↔ reservedFdMax < fd ∧ files fd ≠ none)
  frees : ∀ fd, call.label = .vfsClose fd (.ok ()) → ∀ other,
    call.after.table.load other = if other = fd then some .free else call.before.table.load other
  reads : ∀ fd given len reply buf, call.label = .vfsRead fd given len reply buf →
    call.after.table = call.before.table ∧ (reservedFdMax < fd →
      (reply, buf, call.after.slot) = readByPath call.before.slot (files fd) given len)
  writes : ∀ fd buf reply, call.label = .vfsWrite fd buf reply →
    call.after.table = call.before.table ∧ (reservedFdMax < fd →
      (reply, call.after.slot) = writeByPath call.before.slot (files fd) buf)
  refusals : call.label.failed = true → call.after.table = call.before.table

theorem LeastFree.unique {other : UInt64} (least : LeastFree files fd) (leastToo : LeastFree files other) : fd = other :=
  UInt64.le_antisymm (least.least other leastToo.user leastToo.free) (leastToo.least fd least.user least.free)

theorem vfsOpen_contract (refines : Refines table files) (path : List UInt8) (mode : UInt32) :
    (∀ fd, (vfsOpen table path mode).1 = .ok fd ↔ ValidOpen path mode ∧ LeastFree files fd) ∧
    ((vfsOpen table path mode).1 = .error .tableFull ↔ ValidOpen path mode ∧ ∀ fd, UserFd fd → files fd ≠ none) ∧
    ∀ fd, (vfsOpen table path mode).1 = .ok fd → ∀ other, (vfsOpen table path mode).2.load other =
      if other = fd then some (bindingKindForPath path) else table.load other := by
  have reached := vfsOpen_case refines path mode
  generalize vfsOpen table path mode = outcome at reached
  cases reached with
  | invalid bad other =>
    refine ⟨fun fd => ⟨fun equal => (by cases equal), fun good => absurd good.1 bad⟩, ?_, fun fd equal => by cases equal⟩
    exact ⟨fun equal => absurd (Except.error.inj equal) other, fun good => absurd good.1 bad⟩
  | full valid all =>
    refine ⟨fun fd => ⟨fun equal => (by cases equal), fun good => ?_⟩, ⟨fun _ => ⟨valid, all⟩, fun _ => rfl⟩,
      fun fd equal => by cases equal⟩
    exact absurd good.2.free (all fd good.2.user)
  | opened cell valid least =>
    refine ⟨fun fd => ⟨fun equal => ?_, fun good => by rw [least.unique good.2]⟩, ⟨fun equal => (by cases equal), ?_⟩, ?_⟩
    · cases equal
      exact ⟨valid, least⟩
    · intro full
      exact absurd least.free (full.2 _ least.user)
    · intro fd equal other
      cases equal
      exact load_update_cell cell _ other

theorem vfsClose_contract (refines : Refines table files) (fd : UInt64) :
    ((vfsClose table fd).1 = .ok () ↔ reservedFdMax < fd ∧ files fd ≠ none) ∧
    ((vfsClose table fd).1 = .ok () → ∀ other, (vfsClose table fd).2.load other =
      if other = fd then some .free else table.load other) := by
  have reached := vfsClose_case refines fd
  generalize vfsClose table fd = outcome at reached
  cases reached with
  | refused unopened =>
    exact ⟨⟨fun equal => (by cases equal), fun found => absurd unopened found.2⟩, fun equal => by cases equal⟩
  | closed cell same found =>
    refine ⟨⟨fun _ => ⟨(refines.user fd found).1, found⟩, fun _ => rfl⟩, fun _ other => ?_⟩
    rw [same]
    exact load_update_cell cell _ other

theorem VfsStep.contract (step : VfsStep s label after) (refines : Refines s.table files) :
    FdContract files ⟨s, label, after⟩ := by
  cases step with
  | vfsOpen path mode =>
    obtain ⟨least, full, binds⟩ := vfsOpen_contract refines path mode
    constructor
    case opens =>
      rintro _ _ _ ⟨⟩
      exact ⟨least, full⟩
    case binds =>
      intro path' mode' fd same
      obtain ⟨rfl, rfl, returned⟩ := VfsLabel.vfsOpen.inj same
      exact binds fd returned
    case refusals =>
      intro fails
      obtain ⟨error, refused⟩ := exists_error fails
      exact vfsOpen_error refused
    all_goals
      intros
      contradiction
  | vfsClose fd =>
    obtain ⟨closes, frees⟩ := vfsClose_contract refines fd
    constructor
    case closes =>
      rintro _ _ ⟨⟩
      exact closes
    case frees =>
      intro fd' same
      obtain ⟨rfl, returned⟩ := VfsLabel.vfsClose.inj same
      exact frees returned
    case refusals =>
      intro fails
      obtain ⟨error, refused⟩ := exists_error fails
      exact vfsClose_error refused
    all_goals
      intros
      contradiction
  | vfsRead fd given len =>
    constructor
    case reads =>
      rintro _ _ _ _ _ ⟨⟩
      exact ⟨rfl, vfsRead_eq refines⟩
    case refusals => exact fun _ => rfl
    all_goals
      intros
      contradiction
  | vfsWrite fd buf =>
    constructor
    case writes =>
      rintro _ _ _ ⟨⟩
      exact ⟨rfl, vfsWrite_eq refines⟩
    case refusals => exact fun _ => rfl
    all_goals
      intros
      contradiction

/-- The call opened the descriptor. -/
def VfsLabel.opened (fd : UInt64) (label : VfsLabel) : Prop := ∃ path mode, label = .vfsOpen path mode (.ok fd)

/-- Opened, and not closed since. -/
def OpenSince (history : VfsHistory) (fd : UInt64) : Prop :=
  ∃ before call after, history = before ++ call :: after ∧ call.label.opened fd ∧
    ∀ later ∈ after, later.label ≠ .vfsClose fd (.ok ())

theorem VfsLabel.opened_iff {label : VfsLabel} : label.opened fd ↔ ∃ path, label.event? = some (.claim fd path) := by
  constructor
  · rintro ⟨path, mode, rfl⟩
    exact ⟨path, rfl⟩
  · rintro ⟨path, found⟩
    cases label with
    | vfsOpen other mode reply =>
      cases reply with
      | error => cases found
      | ok =>
        cases found
        exact ⟨_, mode, rfl⟩
    | vfsClose other reply => cases reply <;> cases found
    | vfsRead | vfsWrite => cases found

theorem VfsLabel.closed_iff {label : VfsLabel} : label = .vfsClose fd (.ok ()) ↔ label.event? = some (.release fd) := by
  constructor
  · rintro rfl
    rfl
  · intro found
    cases label with
    | vfsOpen path mode reply => cases reply <;> cases found
    | vfsClose other reply =>
      cases reply with
      | error => cases found
      | ok =>
        cases found
        rfl
    | vfsRead | vfsWrite => cases found

theorem vfsEvents_unreleased : (vfsEvents history).countP (·.releases fd) = 0 ↔
    ∀ call ∈ history, call.label ≠ .vfsClose fd (.ok ()) := by
  rw [List.countP_eq_zero]
  constructor
  · intro kept call member closed
    exact kept (.release fd) (List.mem_filterMap.mpr ⟨call, member, VfsLabel.closed_iff.mp closed⟩) (by simp)
  · intro kept event member released
    obtain ⟨call, recorded, found⟩ := List.mem_filterMap.mp member
    refine kept call recorded (VfsLabel.closed_iff.mpr ?_)
    rw [found, OwnershipEvent.eq_release released]

theorem openFiles_iff : openFiles history fd ≠ none ↔ OpenSince history fd := by
  rw [openFiles, owned_iff]
  constructor
  · rintro ⟨before, path, after, recorded, kept⟩
    obtain ⟨before, call, after, rfl, rfl, opened, rfl⟩ := filterMap_split recorded
    exact ⟨before, call, after, rfl, VfsLabel.opened_iff.mpr ⟨path, opened⟩, vfsEvents_unreleased.mp kept⟩
  · rintro ⟨before, call, after, rfl, opened, kept⟩
    obtain ⟨path, found⟩ := VfsLabel.opened_iff.mp opened
    refine ⟨vfsEvents before, path, vfsEvents after, ?_, vfsEvents_unreleased.mpr kept⟩
    simp [vfsEvents, found]

/-- In every run of the four functions the descriptor table is a map from the
user descriptors to the paths they were opened for. -/
theorem VfsRun.table_is_map {first : Slot} (run : VfsRun first history s) :
    Refines s.table (openFiles history) ∧
    (∀ fd, vfsIsOpen s.table fd = true ↔ fd ≤ reservedFdMax ∨ OpenSince history fd) ∧
    ∀ before call after, history = before ++ call :: after → FdContract (openFiles before) call := by
  refine ⟨run.refines, fun fd => ?_, fun before call after recorded => ?_⟩
  · rw [vfsIsOpen_iff (VfsRun.refines run), openFiles_iff]
  · obtain ⟨earlier, step⟩ := run.split recorded
    exact step.contract (VfsRun.refines earlier)

/-- Two files are opened, and the first one is closed again. -/
theorem table_is_map_closed :
    let one := vfsOpen FdTable.initial devNullPath oRdonly
    let two := vfsOpen one.2 devNullPath oRdwr
    let closed := vfsClose two.2 3
    one.1 = .ok 3 ∧ two.1 = .ok 4 ∧ closed.1 = .ok () ∧
      vfsIsOpen closed.2 3 = false ∧ vfsIsOpen closed.2 4 = true := by
  intro one two closed
  have first : one.1 = .ok 3 := by rfl
  have second : two.1 = .ok 4 := by rfl
  have last : closed.1 = .ok () := by rfl
  have run : VfsRun Slot.initial _ _ :=
    .next (.next (.next .start (.vfsOpen devNullPath oRdonly)) (.vfsOpen devNullPath oRdwr)) (.vfsClose 3)
  have isOpen := (VfsRun.table_is_map run).2.1
  refine ⟨first, second, last, ?_, (isOpen 4).mpr (.inr ?_)⟩
  · rw [Bool.eq_false_iff]
    intro still
    rcases (isOpen 3).mp still with reserved | since
    · exact absurd reserved (by decide)
    · refine openFiles_iff.mpr since ?_
      rfl
  · refine ⟨[_], _, [_], rfl, ⟨devNullPath, oRdwr, ?_⟩, ?_⟩
    · exact congrArg _ second
    · simp

end Asolaria.Vfs
