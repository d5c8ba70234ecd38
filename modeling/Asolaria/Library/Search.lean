import Mathlib.Data.List.Infix

namespace Library

variable {α : Type*} [DecidableEq α]

/-- The pattern occurs in the text. -/
def contains (pattern : List α) : List α → Bool
  | [] => pattern.isEmpty
  | a :: rest => pattern.isPrefixOf (a :: rest) || contains pattern rest

/-- The last position at which the pattern occurs in the text. -/
def rfind (pattern : List α) : List α → Option Nat
  | [] => if pattern.isEmpty then some 0 else none
  | a :: rest =>
    match rfind pattern rest with
    | some i => some (i + 1)
    | none => if pattern.isPrefixOf (a :: rest) then some 0 else none

variable {pattern text front tail : List α} {i : Nat}

theorem contains_iff : contains pattern text = true ↔ pattern <:+: text := by
  induction text with
  | nil => simp [contains]
  | cons a rest ih => rw [contains, Bool.or_eq_true, List.isPrefixOf_iff_prefix, ih, List.infix_cons_iff]

theorem rfind_cons_some {a : α} (later : rfind pattern text = some i) : rfind pattern (a :: text) = some (i + 1) := by
  rw [rfind, later]

theorem rfind_cons_none {a : α} (later : rfind pattern text = none) :
    rfind pattern (a :: text) = if pattern.isPrefixOf (a :: text) then some 0 else none := by
  rw [rfind, later]

theorem rfind_eq_none_iff : rfind pattern text = none ↔ ∀ i, ¬ pattern <+: text.drop i := by
  induction text with
  | nil =>
    rw [rfind]
    by_cases empty : pattern = []
    · simp [empty]
    · simp [empty]
  | cons a rest ih =>
    cases later : rfind pattern rest with
    | some j =>
      rw [rfind_cons_some later]
      have occurs : ¬ ∀ i, ¬ pattern <+: rest.drop i := fun absent => by cases later.symm.trans (ih.mpr absent)
      simp only [reduceCtorEq, false_iff]
      exact fun absent => occurs fun i => absent (i + 1)
    | none =>
      have behind := ih.mp later
      rw [rfind_cons_none later]
      by_cases here : pattern <+: a :: rest
      · rw [if_pos (List.isPrefixOf_iff_prefix.mpr here)]
        simp only [reduceCtorEq, false_iff]
        exact fun absent => absent 0 here
      · rw [if_neg fun found => here (List.isPrefixOf_iff_prefix.mp found)]
        simp only [true_iff]
        intro i
        cases i with
        | zero => exact here
        | succ i => exact behind i

/-- The text around the place where the pattern is found. -/
theorem rfind_split (found : rfind pattern text = some i) :
    ∃ front tail, text = front ++ pattern ++ tail ∧ front.length = i := by
  induction text generalizing i with
  | nil =>
    rw [rfind] at found
    by_cases empty : pattern = []
    · rw [if_pos (List.isEmpty_iff.mpr empty)] at found
      cases found
      exact ⟨[], [], by rw [empty]; rfl, rfl⟩
    · simp [empty] at found
  | cons a rest ih =>
    cases later : rfind pattern rest with
    | some j =>
      rw [rfind_cons_some later] at found
      cases found
      obtain ⟨front, tail, rfl, length⟩ := ih later
      exact ⟨a :: front, tail, rfl, congrArg (· + 1) length⟩
    | none =>
      rw [rfind_cons_none later] at found
      by_cases here : pattern <+: a :: rest
      · rw [if_pos (List.isPrefixOf_iff_prefix.mpr here)] at found
        cases found
        obtain ⟨tail, whole⟩ := here
        exact ⟨[], tail, whole.symm, rfl⟩
      · rw [if_neg fun matched => here (List.isPrefixOf_iff_prefix.mp matched)] at found
        cases found

theorem rfind_some (found : rfind pattern text = some i) :
    text = text.take i ++ pattern ++ text.drop (i + pattern.length) := by
  obtain ⟨front, tail, rfl, rfl⟩ := rfind_split found
  simp

theorem rfind_inside (found : rfind pattern text = some i) : i + pattern.length ≤ text.length := by
  obtain ⟨front, tail, rfl, rfl⟩ := rfind_split found
  simp

/-- What stands where the pattern is found. -/
theorem rfind_getElem? (found : rfind pattern text = some i) {k : Nat} (inside : k < pattern.length) :
    text[i + k]? = pattern[k]? := by
  obtain ⟨front, tail, rfl, rfl⟩ := rfind_split found
  rw [List.append_assoc, List.getElem?_append_right (Nat.le_add_right _ _), Nat.add_sub_cancel_left,
    List.getElem?_append_left inside]

/-- The pattern is found where it stands when it does not occur any further
to the right. -/
theorem rfind_append (front : List α) (proper : pattern ≠ [])
    (last : ∀ i, ¬ pattern <+: (pattern ++ tail).drop (i + 1)) :
    rfind pattern (front ++ (pattern ++ tail)) = some front.length := by
  induction front with
  | nil =>
    obtain ⟨a, rest, rfl⟩ := List.exists_cons_of_ne_nil proper
    have behind : rfind (a :: rest) (rest ++ tail) = none := rfind_eq_none_iff.mpr last
    rw [List.nil_append, List.cons_append, rfind_cons_none behind, if_pos]
    · rfl
    · exact List.isPrefixOf_iff_prefix.mpr ⟨tail, rfl⟩
  | cons a front ih => exact rfind_cons_some ih

end Library
