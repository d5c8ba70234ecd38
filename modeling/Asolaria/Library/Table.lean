import Mathlib.Data.List.Basic

namespace Library

variable {α ε : Type*}

/-- The first wanted entry of a table is updated. The update itself may fail,
and so does a search that finds nothing. -/
def updateFirst (wanted : α → Bool) (update : α → Except ε α) (absent : ε) : List α → Except ε (List α)
  | [] => .error absent
  | a :: rest =>
    if wanted a then (update a).map (· :: rest) else (updateFirst wanted update absent rest).map (a :: ·)

/-- Every entry stays at its place, and becomes at most what `Keeps` allows. -/
def Grows (Keeps : α → α → Prop) (before after : List α) : Prop :=
  ∀ (i : Nat) (a : α), before[i]? = some a → ∃ b, after[i]? = some b ∧ Keeps a b

section
variable {wanted : α → Bool} {update : α → Except ε α} {absent : ε} {table result : List α}

/-- A successful update changes one entry in its place. -/
theorem updateFirst_ok (done : updateFirst wanted update absent table = .ok result) :
    ∃ front a b rest, table = front ++ a :: rest ∧ wanted a = true ∧ update a = .ok b ∧ result = front ++ b :: rest := by
  induction table generalizing result with
  | nil => cases done
  | cons first table ih =>
    rw [updateFirst] at done
    by_cases found : wanted first = true
    · rw [if_pos found] at done
      cases updated : update first with
      | error reason =>
        rw [updated] at done
        cases done
      | ok b =>
        rw [updated] at done
        cases done
        exact ⟨[], first, b, table, rfl, found, updated, rfl⟩
    · rw [if_neg found] at done
      cases later : updateFirst wanted update absent table with
      | error reason =>
        rw [later] at done
        cases done
      | ok behind =>
        rw [later] at done
        cases done
        obtain ⟨front, a, b, rest, rfl, here, updated, rfl⟩ := ih later
        exact ⟨first :: front, a, b, rest, rfl, here, updated, rfl⟩

/-- An entry with no wanted one before it is the one that is updated. -/
theorem updateFirst_of_first {i : Nat} {a : α} (here : table[i]? = some a) (found : wanted a = true)
    (first : ∀ j < i, ∀ b, table[j]? = some b → wanted b = false) :
    updateFirst wanted update absent table = (update a).map (table.set i ·) := by
  induction table generalizing i with
  | nil => cases here
  | cons head table ih =>
    cases i with
    | zero =>
      obtain rfl : head = a := by simpa using here
      rw [updateFirst, if_pos found]
      rfl
    | succ i =>
      have skipped : wanted head = false := first 0 (Nat.succ_pos i) head rfl
      have later := ih (i := i) here fun j below b entry => first (j + 1) (Nat.succ_lt_succ below) b entry
      rw [updateFirst, skipped, later]
      cases update a with
      | error reason => rfl
      | ok b => rfl

end

namespace Grows

variable {Keeps : α → α → Prop} {before middle after : List α}

theorem trans (chain : ∀ {a b c}, Keeps a b → Keeps b c → Keeps a c) (early : Grows Keeps before middle)
    (late : Grows Keeps middle after) : Grows Keeps before after := by
  intro i a entry
  obtain ⟨b, atMiddle, kept⟩ := early i a entry
  obtain ⟨c, atAfter, keptLater⟩ := late i b atMiddle
  exact ⟨c, atAfter, chain kept keptLater⟩

theorem length_le (grows : Grows Keeps before after) : before.length ≤ after.length := by
  by_contra fewer
  obtain ⟨b, beyond, _⟩ := grows after.length _ (List.getElem?_eq_getElem (Nat.not_le.mp fewer))
  exact absurd (List.getElem?_eq_some_iff.mp beyond).1 (Nat.lt_irrefl _)

/-- A table that has grown by no entry came from one of the same length,
place by place. -/
theorem source (grows : Grows Keeps before after) (length : after.length = before.length) {i : Nat} {b : α}
    (entry : after[i]? = some b) : ∃ a, before[i]? = some a ∧ Keeps a b := by
  have bound := (List.getElem?_eq_some_iff.mp entry).1
  obtain ⟨c, found, kept⟩ := grows i before[i] (List.getElem?_eq_getElem (length ▸ bound))
  obtain rfl := Option.some.inj (found.symm.trans entry)
  exact ⟨_, List.getElem?_eq_getElem (length ▸ bound), kept⟩

theorem map_eq {β : Type*} {observe : α → β} (kept : ∀ {a b}, Keeps a b → observe b = observe a)
    (grows : Grows Keeps before after) (length : after.length = before.length) :
    after.map observe = before.map observe := by
  refine List.ext_getElem (by rw [List.length_map, List.length_map, length]) fun i bound _ => ?_
  rw [List.length_map] at bound
  obtain ⟨a, entry, keeps⟩ := grows.source length (List.getElem?_eq_getElem bound)
  obtain ⟨below, rfl⟩ := List.getElem?_eq_some_iff.mp entry
  rw [List.getElem_map, List.getElem_map]
  exact kept keeps

variable (same : ∀ a, Keeps a a)

include same in
theorem append (table added : List α) : Grows Keeps table (table ++ added) := by
  intro i a entry
  have bound := (List.getElem?_eq_some_iff.mp entry).1
  exact ⟨a, by rw [List.getElem?_append_left bound, entry], same a⟩

include same in
theorem refl (table : List α) : Grows Keeps table table := fun _ a entry => ⟨a, entry, same a⟩

include same in
theorem replace {a b : α} (front rest : List α) (kept : Keeps a b) :
    Grows Keeps (front ++ a :: rest) (front ++ b :: rest) := by
  intro i c entry
  induction front generalizing i with
  | nil =>
    cases i with
    | zero =>
      obtain rfl : a = c := by simpa using entry
      exact ⟨b, by simp, kept⟩
    | succ i => exact ⟨c, by simpa using entry, same c⟩
  | cons first front ih =>
    cases i with
    | zero => exact ⟨c, by simpa using entry, same c⟩
    | succ i => exact ih i (by simpa using entry)

end Grows

end Library
