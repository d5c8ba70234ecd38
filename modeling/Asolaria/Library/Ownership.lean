import Mathlib.Data.List.Induction
import Mathlib.Logic.Function.Basic

namespace Library

/-- What can happen to a family of cells that have at most one owner each. -/
inductive OwnershipEvent (κ ω : Type*)
  | claim (cell : κ) (owner : ω)
  | release (cell : κ)

variable {κ ω : Type*} [DecidableEq κ]

namespace OwnershipEvent

def claims (cell : κ) : OwnershipEvent κ ω → Bool
  | .claim other _ => other = cell
  | .release _ => false

def releases (cell : κ) : OwnershipEvent κ ω → Bool
  | .claim _ _ => false
  | .release other => other = cell

def record (owners : κ → Option ω) : OwnershipEvent κ ω → κ → Option ω
  | .claim cell owner => Function.update owners cell (some owner)
  | .release cell => Function.update owners cell none

/-- A claim needs the cell free, a release needs it held. -/
def Allowed (owners : κ → Option ω) : OwnershipEvent κ ω → Prop
  | .claim cell _ => owners cell = none
  | .release cell => owners cell ≠ none

@[simp] theorem claims_claim (cell other : κ) (owner : ω) : (claim other owner).claims cell = decide (other = cell) := rfl

@[simp] theorem claims_release (cell other : κ) : (release other : OwnershipEvent κ ω).claims cell = false := rfl

@[simp] theorem releases_claim (cell other : κ) (owner : ω) : (claim other owner).releases cell = false := rfl

@[simp] theorem releases_release (cell other : κ) :
    (release other : OwnershipEvent κ ω).releases cell = decide (other = cell) := rfl

theorem eq_release {event : OwnershipEvent κ ω} {cell : κ} (released : event.releases cell = true) :
    event = .release cell := by
  cases event with
  | claim => cases released
  | release other => rw [of_decide_eq_true released]

end OwnershipEvent

/-- Who holds which cell after the events. -/
def owners (events : List (OwnershipEvent κ ω)) : κ → Option ω := events.foldl OwnershipEvent.record fun _ => none

/-- Every event was allowed where it happened. -/
def Exclusive (events : List (OwnershipEvent κ ω)) : Prop :=
  ∀ before event after, events = before ++ event :: after → event.Allowed (owners before)

variable {events before middle after : List (OwnershipEvent κ ω)} {event : OwnershipEvent κ ω} {cell : κ} {owner : ω}

@[simp] theorem owners_snoc : owners (events ++ [event]) = event.record (owners events) := by
  simp [owners]

theorem Exclusive.nil : Exclusive ([] : List (OwnershipEvent κ ω)) := by
  intro before event after recorded
  simp at recorded

theorem Exclusive.snoc (exclusive : Exclusive events) (allowed : event.Allowed (owners events)) :
    Exclusive (events ++ [event]) := by
  intro before other after recorded
  rcases List.eq_nil_or_concat after with rfl | ⟨rest, last, rfl⟩
  · obtain ⟨rfl, same⟩ := List.append_inj' recorded rfl
    obtain rfl := List.singleton_inj.mp same
    exact allowed
  · rw [List.concat_eq_append, ← List.cons_append, ← List.append_assoc] at recorded
    exact exclusive before other rest (List.append_inj' recorded rfl).1

theorem Exclusive.left (exclusive : Exclusive (events ++ after)) : Exclusive events := by
  intro earlier event later recorded
  exact exclusive earlier event (later ++ after) (by rw [recorded]; simp)

/-- Claims and releases of a cell alternate: there is one claim more while
the cell is held, and equally many while it is free. -/
theorem Exclusive.balance (exclusive : Exclusive events) (cell : κ) :
    events.countP (·.claims cell) = events.countP (·.releases cell) + (owners events cell).toList.length := by
  induction events using List.reverseRecOn with
  | nil => rfl
  | append_singleton events event ih =>
    have earlier := ih exclusive.left
    have allowed := exclusive events event [] rfl
    rw [List.countP_append, List.countP_append, List.countP_singleton, List.countP_singleton, owners_snoc, earlier]
    cases event with
    | claim other owner =>
      by_cases same : other = cell
      · obtain rfl := same
        have free : owners events other = none := allowed
        simp [OwnershipEvent.record, free]
      · simp [OwnershipEvent.record, same, Ne.symm same]
    | release other =>
      by_cases same : other = cell
      · obtain rfl := same
        obtain ⟨owner, held⟩ := Option.ne_none_iff_exists'.mp allowed
        simp [OwnershipEvent.record, held]
      · simp [OwnershipEvent.record, same, Ne.symm same]

/-- Behind a claim, while nobody claims the cell again, it is released once
or still held. -/
theorem Exclusive.released_or_held (exclusive : Exclusive (before ++ .claim cell owner :: middle))
    (unclaimed : middle.countP (·.claims cell) = 0) :
    middle.countP (·.releases cell) + (owners (before ++ .claim cell owner :: middle) cell).toList.length = 1 := by
  have whole := exclusive.balance cell
  rw [← List.singleton_append, ← List.append_assoc] at exclusive
  have upTo := exclusive.left.balance cell
  rw [owners_snoc, OwnershipEvent.record, Function.update_self] at upTo
  simp only [List.countP_append, List.countP_cons, List.countP_nil, unclaimed, OwnershipEvent.claims_claim,
    OwnershipEvent.releases_claim] at whole upTo
  simp only [Option.toList_some, List.length_singleton] at upTo
  omega

/-- Between two successive claims of a cell it is released exactly once. -/
theorem Exclusive.one_release_between {next : ω}
    (exclusive : Exclusive (before ++ .claim cell owner :: (middle ++ .claim cell next :: after)))
    (unclaimed : middle.countP (·.claims cell) = 0) : middle.countP (·.releases cell) = 1 := by
  have recorded : before ++ OwnershipEvent.claim cell owner :: (middle ++ .claim cell next :: after) =
      (before ++ .claim cell owner :: middle) ++ .claim cell next :: after := by simp
  rw [recorded] at exclusive
  have free : owners (before ++ .claim cell owner :: middle) cell = none := exclusive _ _ _ rfl
  have once := exclusive.left.released_or_held unclaimed
  rw [free] at once
  simpa using once

theorem record_held (held : owners events cell ≠ none) (kept : event.releases cell = false) :
    event.record (owners events) cell ≠ none := by
  cases event with
  | claim other owner =>
    by_cases same : cell = other
    · simp [OwnershipEvent.record, same]
    · rwa [OwnershipEvent.record, Function.update_of_ne same]
  | release other =>
    have different : cell ≠ other := by
      intro same
      simp [same] at kept
    rwa [OwnershipEvent.record, Function.update_of_ne different]

theorem owners_held (held : owners events cell ≠ none) (kept : after.countP (·.releases cell) = 0) :
    owners (events ++ after) cell ≠ none := by
  induction after generalizing events with
  | nil => rwa [List.append_nil]
  | cons event after ih =>
    have here : event.releases cell = false := by simpa using (List.countP_eq_zero.mp kept) event (by simp)
    have later : after.countP (·.releases cell) = 0 := by
      rw [List.countP_cons] at kept
      omega
    rw [List.append_cons]
    refine ih ?_ later
    rw [owners_snoc]
    exact record_held held here

/-- A cell is held exactly when it was claimed and not released since. -/
theorem owned_iff : owners events cell ≠ none ↔
    ∃ before owner after, events = before ++ .claim cell owner :: after ∧ after.countP (·.releases cell) = 0 := by
  constructor
  · intro held
    induction events using List.reverseRecOn with
    | nil => exact absurd rfl held
    | append_singleton events event ih =>
      -- Either the last event claimed the cell, or it was held before.
      rw [owners_snoc] at held
      have extend (earlier : owners events cell ≠ none) (kept : event.releases cell = false) :
          ∃ before owner after, events ++ [event] = before ++ .claim cell owner :: after ∧
            after.countP (·.releases cell) = 0 := by
        obtain ⟨before, owner, after, rfl, quiet⟩ := ih earlier
        exact ⟨before, owner, after ++ [event], by simp, by simp [List.countP_append, quiet, kept]⟩
      cases event with
      | claim other owner =>
        by_cases same : cell = other
        · obtain rfl := same
          exact ⟨events, owner, [], rfl, rfl⟩
        · rw [OwnershipEvent.record, Function.update_of_ne same] at held
          exact extend held rfl
      | release other =>
        by_cases same : cell = other
        · simp [OwnershipEvent.record, same] at held
        · rw [OwnershipEvent.record, Function.update_of_ne same] at held
          exact extend held (by simp [Ne.symm same])
  · rintro ⟨before, owner, after, rfl, kept⟩
    rw [List.append_cons]
    refine owners_held ?_ kept
    simp [OwnershipEvent.record]

/-- As long as nobody releases the cell its owner stays the one of the claim. -/
theorem Exclusive.still_held (exclusive : Exclusive (before ++ .claim cell owner :: after))
    (kept : after.countP (·.releases cell) = 0) : owners (before ++ .claim cell owner :: after) cell = some owner := by
  induction after using List.reverseRecOn with
  | nil => simp [OwnershipEvent.record]
  | append_singleton after event ih =>
    rw [← List.cons_append, ← List.append_assoc] at exclusive ⊢
    rw [List.countP_append, List.countP_singleton] at kept
    have held := ih exclusive.left (by omega)
    have allowed := exclusive _ event [] rfl
    rw [owners_snoc]
    cases event with
    | claim other next =>
      have different : cell ≠ other := by
        rintro rfl
        cases held.symm.trans allowed
      rw [OwnershipEvent.record, Function.update_of_ne different, held]
    | release other =>
      have different : cell ≠ other := by
        rintro rfl
        simp at kept
      rw [OwnershipEvent.record, Function.update_of_ne different, held]

end Library
