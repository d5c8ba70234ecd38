import Mathlib.Data.List.Lex
import Mathlib.Order.Lattice

namespace Library

variable {α : Type*} {n : Nat}

/-- The values at the earlier times are the smaller ones. -/
theorem le_of_steps [LinearOrder α] {digit : Nat → α} (steps : ∀ k < n, digit (k + 1) ≤ digit k) {i j : Nat}
    (ordered : i ≤ j) (bound : j ≤ n) : digit j ≤ digit i := by
  induction ordered with
  | refl => exact le_rfl
  | @step j _ ih => exact (steps j bound).trans (ih (Nat.le_of_succ_le bound))

theorem cons_le_cons_iff_lex [LinearOrder α] {a b : α} {l m : List α} :
    a :: l ≤ b :: m ↔ a < b ∨ a = b ∧ l ≤ m := by
  rw [← not_lt, List.cons_lt_cons_iff, not_or, not_and, not_lt]
  constructor
  · rintro ⟨ordered, rest⟩
    rcases ordered.lt_or_eq with less | same
    · exact .inl less
    · exact .inr ⟨same, not_lt.mp (rest same.symm)⟩
  · rintro (less | ⟨rfl, rest⟩)
    · exact ⟨less.le, fun same => absurd same less.ne'⟩
    · exact ⟨le_rfl, fun _ => not_lt.mpr rest⟩

variable [Inhabited α] {shown : Nat → List α}

/-- The digits of a counter that moves on while it is read, the most
significant digit first. The digit at place `k` is taken from the value
`shown k`, and the last place is read first. -/
def tornRead : Nat → (Nat → List α) → List α
  | 0, _ => []
  | n + 1, shown => (shown 0).headD default :: tornRead n fun k => (shown (k + 1)).tail

theorem headD_cons_tail {digits : List α} (filled : digits.length = n + 1) :
    digits.headD default :: digits.tail = digits := by
  obtain ⟨first, rest, rfl⟩ := List.exists_cons_of_length_eq_add_one filled
  rfl

/-- A counter that stands still is read as it is. -/
theorem tornRead_steady {value : List α} (still : ∀ k < value.length, shown k = value) :
    tornRead value.length shown = value := by
  induction value generalizing shown with
  | nil => rfl
  | cons first rest ih =>
    have here := still 0 (Nat.succ_pos _)
    have behind : tornRead rest.length (fun k => (shown (k + 1)).tail) = rest := by
      refine ih fun k inside => ?_
      rw [still (k + 1) (Nat.succ_lt_succ inside), List.tail_cons]
    rw [List.length_cons, tornRead, behind, here, List.headD_cons]

/-- What is read of a counter that only grows is never below its value
before the first digit was read. -/
theorem le_tornRead [LinearOrder α] (length : ∀ k ≤ n, (shown k).length = n)
    (growing : ∀ k < n, shown (k + 1) ≤ shown k) : shown n ≤ tornRead n shown := by
  induction n generalizing shown with
  | zero =>
    rw [List.length_eq_zero_iff.mp (length 0 (Nat.le_refl 0))]
    exact not_lt.mp (List.not_lt_nil _)
  | succ n ih =>
    let digit := fun k => (shown k).headD default
    let rest := fun k => (shown k).tail
    have cut : ∀ k ≤ n + 1, digit k :: rest k = shown k := fun k bound => headD_cons_tail (length k bound)
    have step : ∀ k < n + 1, digit (k + 1) < digit k ∨ digit (k + 1) = digit k ∧ rest (k + 1) ≤ rest k := by
      intro k bound
      rw [← cons_le_cons_iff_lex, cut (k + 1) bound, cut k (Nat.le_of_lt bound)]
      exact growing k bound
    have digits : ∀ k < n + 1, digit (k + 1) ≤ digit k := fun k bound =>
      (step k bound).elim le_of_lt fun same => same.1.le
    rw [← cut (n + 1) (Nat.le_refl _), tornRead, cons_le_cons_iff_lex]
    rcases (le_of_steps digits (Nat.zero_le (n + 1)) (Nat.le_refl _)).lt_or_eq with less | same
    · exact .inl less
    · -- The first digit stood still, so the others are read of a counter that only grows.
      let others := fun k => rest (k + 1)
      have lengths : ∀ k ≤ n, (others k).length = n := by
        intro k bound
        show (shown (k + 1)).tail.length = n
        rw [List.length_tail, length (k + 1) (Nat.succ_le_succ bound), Nat.add_sub_cancel]
      have grow : ∀ k < n, others (k + 1) ≤ others k := by
        intro k bound
        have below := le_of_steps digits (Nat.zero_le (k + 1)) (by omega)
        have above := le_of_steps digits (show k + 1 + 1 ≤ n + 1 by omega) (Nat.le_refl _)
        rcases step (k + 1) (by omega) with less | ⟨_, ordered⟩
        · exact absurd (same ▸ above.trans_lt less) (not_lt_of_ge below)
        · exact ordered
      exact .inr ⟨same, ih lengths grow⟩

end Library
