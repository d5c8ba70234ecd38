import Mathlib.Data.List.Induction
import Mathlib.Data.List.TakeWhile

namespace Library

variable {α : Type*} {p : α → Prop} [DecidablePred p] {xs : List α} {x : α} {k : Nat}

/-- How many items at the end of a list have a property, up to the first that
has not. -/
def trailingRun (p : α → Prop) [DecidablePred p] (xs : List α) : Nat :=
  (xs.reverse.takeWhile fun x => decide (p x)).length

@[simp] theorem trailingRun_nil : trailingRun p [] = 0 := rfl

theorem trailingRun_append (xs : List α) (x : α) :
    trailingRun p (xs ++ [x]) = if p x then trailingRun p xs + 1 else 0 := by
  rw [trailingRun, List.reverse_append, List.reverse_singleton, List.singleton_append, List.takeWhile_cons]
  by_cases holds : p x
  · rw [if_pos holds, if_pos (decide_eq_true holds), List.length_cons, trailingRun]
  · rw [if_neg holds, if_neg (by simpa using holds), List.length_nil]

/-- The run has a length at least when the last items all have the property. -/
theorem le_trailingRun_iff :
    k ≤ trailingRun p xs ↔ k ≤ xs.length ∧ ∀ y ∈ xs.drop (xs.length - k), p y := by
  induction xs using List.reverseRecOn generalizing k with
  | nil =>
    rw [trailingRun_nil, List.drop_nil, List.length_nil]
    exact ⟨fun zero => ⟨zero, fun y member => by cases member⟩, fun zero => zero.1⟩
  | append_singleton xs x ih =>
    rw [trailingRun_append, List.length_append, List.length_singleton]
    cases k with
    | zero => simp
    | succ k =>
      have start : xs.length + 1 - (k + 1) ≤ xs.length := by omega
      rw [List.drop_append_of_le_length start, List.forall_mem_append, List.forall_mem_singleton,
        Nat.add_sub_add_right]
      by_cases holds : p x
      · rw [if_pos holds, Nat.add_le_add_iff_right, Nat.add_le_add_iff_right, ih]
        exact and_congr_right fun _ => (and_iff_left holds).symm
      · rw [if_neg holds]
        exact ⟨fun impossible => by omega, fun all => absurd all.2.2 holds⟩

end Library
