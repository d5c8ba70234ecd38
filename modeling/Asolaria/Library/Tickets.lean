import Asolaria.Library.Run
import Mathlib.Data.List.Nodup

namespace Library

/-- The numbers that a counter of 64 bits gives out one after the other. -/
def ticketsFrom (first : UInt64) (n : Nat) : List UInt64 := (List.range n).map fun k => first + UInt64.ofNat k

section Numbers
variable {first : UInt64} {n : Nat}

@[simp] theorem length_ticketsFrom : (ticketsFrom first n).length = n := by
  rw [ticketsFrom, List.length_map, List.length_range]

theorem ticketsFrom_succ : ticketsFrom first (n + 1) = ticketsFrom first n ++ [first + UInt64.ofNat n] := by
  rw [ticketsFrom, List.range_succ, List.map_append, List.map_singleton, ticketsFrom]

theorem add_ofNat_inj {a b : Nat} : first + UInt64.ofNat a = first + UInt64.ofNat b ↔ a % UInt64.size = b % UInt64.size := by
  rw [UInt64.add_right_inj, ← UInt64.toNat_inj]
  rfl

/-- No number comes a second time before the counter has gone around. -/
theorem nodup_ticketsFrom : (ticketsFrom first n).Nodup ↔ n ≤ UInt64.size := by
  constructor
  · intro distinct
    by_contra many
    have around : first + UInt64.ofNat 0 = first + UInt64.ofNat UInt64.size := add_ofNat_inj.mpr (by decide)
    have both := List.inj_on_of_nodup_map distinct (List.mem_range.mpr (by omega : 0 < n))
      (List.mem_range.mpr (by omega : UInt64.size < n)) around
    cases both
  · intro few
    refine (List.nodup_map_iff_inj_on List.nodup_range).mpr fun a inside b inside' same => ?_
    rw [List.mem_range] at inside inside'
    rwa [add_ofNat_inj, Nat.mod_eq_of_lt (by omega), Nat.mod_eq_of_lt (by omega)] at same

theorem mem_ticketsFrom {ticket : UInt64} : ticket ∈ ticketsFrom first n ↔ ∃ k < n, first + UInt64.ofNat k = ticket := by
  rw [ticketsFrom, List.mem_map]
  exact exists_congr fun k => and_congr_left' List.mem_range

theorem toNat_ticket {k : Nat} (inside : k < n) (few : first.toNat + n ≤ UInt64.size) :
    (first + UInt64.ofNat k).toNat = first.toNat + k := by
  have small : k < UInt64.size := by omega
  rw [UInt64.toNat_add, UInt64.toNat_ofNat_of_lt' small]
  exact Nat.mod_eq_of_lt (show first.toNat + k < UInt64.size by omega)

theorem zero_not_mem_ticketsFrom (begun : 0 < first.toNat) (few : first.toNat + n ≤ UInt64.size) :
    0 ∉ ticketsFrom first n := by
  rw [mem_ticketsFrom]
  rintro ⟨k, inside, zero⟩
  have number := toNat_ticket inside few
  rw [zero, UInt64.toNat_zero] at number
  omega

/-- The numbers grow as long as the counter does not wrap around. -/
theorem pairwise_ticketsFrom : (ticketsFrom first n).Pairwise (· < ·) ↔ first.toNat + n ≤ UInt64.size := by
  rw [ticketsFrom, List.pairwise_map]
  constructor
  · intro grows
    by_contra many
    have bound : first.toNat < UInt64.size := first.toNat_lt
    -- The number that comes with the wrap is zero, and nothing is below it.
    have wrap : first + UInt64.ofNat (UInt64.size - first.toNat) = 0 := by
      have around : first = UInt64.ofNat first.toNat := UInt64.ofNat_toNat.symm
      rw [around, ← UInt64.ofNat_add, UInt64.toNat_ofNat_of_lt' bound, Nat.add_sub_cancel' (Nat.le_of_lt bound)]
      rfl
    have less := List.pairwise_iff_getElem.mp grows 0 (UInt64.size - first.toNat) (by rw [List.length_range]; omega)
      (by rw [List.length_range]; omega) (by omega)
    rw [List.getElem_range, List.getElem_range, wrap] at less
    exact absurd less UInt64.not_lt_zero
  · intro few
    refine List.pairwise_lt_range.imp_of_mem fun {a b} inside inside' less => ?_
    rw [List.mem_range] at inside inside'
    rw [UInt64.lt_iff_toNat_lt, toNat_ticket inside few, toNat_ticket inside' few]
    omega

end Numbers

section Runs
variable {State Label : Type*} {Step : State → Label → State → Prop} {counter : State → UInt64}
  {taken : Transition State Label → Option UInt64}

/-- Every step leaves a counter alone, or takes its value and moves it on. -/
def Counts (Step : State → Label → State → Prop) (counter : State → UInt64)
    (taken : Transition State Label → Option UInt64) : Prop :=
  ∀ s label t, Step s label t → (taken ⟨s, label, t⟩ = none ∧ counter t = counter s) ∨
    (taken ⟨s, label, t⟩ = some (counter s) ∧ counter t = counter s + 1)

/-- Whoever takes a value, the values are taken one after the other. -/
theorem Run.tickets {first current : State} {history : List (Transition State Label)} (run : Run Step first history current)
    (counts : Counts Step counter taken) : ∃ n, history.filterMap taken = ticketsFrom (counter first) n ∧
      counter current = counter first + UInt64.ofNat n := by
  induction run with
  | start => exact ⟨0, rfl, (UInt64.add_zero _).symm⟩
  | @next history current label after _ step ih =>
    obtain ⟨n, values, reached⟩ := ih
    rw [List.filterMap_append, filterMap_single, values]
    rcases counts current label after step with ⟨silent, stays⟩ | ⟨took, moves⟩
    · exact ⟨n, by rw [silent, Option.toList_none, List.append_nil], stays.trans reached⟩
    · refine ⟨n + 1, ?_, ?_⟩
      · rw [took, Option.toList_some, reached, ticketsFrom_succ]
      · rw [moves, reached, UInt64.add_assoc, UInt64.ofNat_add]
        rfl

end Runs

end Library
