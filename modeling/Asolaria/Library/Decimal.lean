import Mathlib.Algebra.Group.Nat.Defs
import Mathlib.Data.List.Basic

namespace Library

/-- A number in decimal, in bytes. -/
def decimalBytes (n : Nat) : List UInt8 := (Nat.toDigits 10 n).map fun digit => UInt8.ofNat digit.toNat

/-- The digit that stands for `n % 10`. -/
def lastDigit (n : Nat) : UInt8 := 48 + UInt8.ofNat (n % 10)

theorem lastDigit_toNat (n : Nat) : (lastDigit n).toNat = 48 + n % 10 := by
  have small : n % 10 < 10 := Nat.mod_lt n (by decide)
  rw [lastDigit, UInt8.toNat_add, UInt8.toNat_ofNat', show (48 : UInt8).toNat = 48 from rfl]
  omega

theorem digitChar_eq (n : Nat) : UInt8.ofNat (n % 10).digitChar.toNat = lastDigit n := by
  apply UInt8.toNat_inj.mp
  have small : n % 10 < 10 := Nat.mod_lt n (by decide)
  rw [lastDigit_toNat, Nat.toNat_digitChar_of_lt_ten small, UInt8.toNat_ofNat']
  omega

theorem decimalBytes_of_lt {n : Nat} (small : n < 10) : decimalBytes n = [lastDigit n] := by
  rw [decimalBytes, Nat.toDigits_of_lt_base small, List.map_singleton, ← digitChar_eq, Nat.mod_eq_of_lt small]

theorem decimalBytes_of_le {n : Nat} (large : 10 ≤ n) : decimalBytes n = decimalBytes (n / 10) ++ [lastDigit n] := by
  rw [decimalBytes, Nat.toDigits_of_base_le (by decide) large, List.map_append, List.map_singleton, digitChar_eq]
  rfl

theorem length_decimalBytes_pos (n : Nat) : 0 < (decimalBytes n).length := by
  rw [decimalBytes, List.length_map]
  exact Nat.length_toDigits_pos

theorem length_decimalBytes_le {n digits : Nat} (some : 0 < digits) (small : n < 10 ^ digits) :
    (decimalBytes n).length ≤ digits := by
  rw [decimalBytes, List.length_map]
  exact (Nat.length_toDigits_le_iff (by decide) some).mpr small

/-- Nothing but digits is printed. -/
theorem digit_of_mem_decimalBytes {n : Nat} {b : UInt8} (member : b ∈ decimalBytes n) : 48 ≤ b ∧ b ≤ 57 := by
  have bounds : ∀ m, (48 : UInt8) ≤ lastDigit m ∧ lastDigit m ≤ 57 := by
    intro m
    have small : m % 10 < 10 := Nat.mod_lt m (by decide)
    rw [UInt8.le_iff_toNat_le, UInt8.le_iff_toNat_le, lastDigit_toNat, show (48 : UInt8).toNat = 48 from rfl,
      show (57 : UInt8).toNat = 57 from rfl]
    omega
  induction n using Nat.strongRecOn with
  | _ n ih =>
    by_cases small : n < 10
    · rw [decimalBytes_of_lt small, List.mem_singleton] at member
      exact member ▸ bounds n
    · rw [decimalBytes_of_le (by omega), List.mem_append, List.mem_singleton] at member
      rcases member with front | last
      · exact ih (n / 10) (by omega) front
      · exact last ▸ bounds n

theorem not_mem_decimalBytes {n : Nat} {b : UInt8} (other : ¬ (48 ≤ b ∧ b ≤ 57)) : b ∉ decimalBytes n :=
  fun member => other (digit_of_mem_decimalBytes member)

/-- The number is read off from its last digit and the ones in front. -/
theorem decimalBytes_inj {m n : Nat} (same : decimalBytes m = decimalBytes n) : m = n := by
  have digits : ∀ {k l : Nat}, lastDigit k = lastDigit l → k % 10 = l % 10 := by
    intro k l equal
    have value := congrArg UInt8.toNat equal
    rw [lastDigit_toNat, lastDigit_toNat] at value
    omega
  induction m using Nat.strongRecOn generalizing n with
  | _ m ih =>
    by_cases smallM : m < 10
    · by_cases smallN : n < 10
      · rw [decimalBytes_of_lt smallM, decimalBytes_of_lt smallN] at same
        have := digits (List.cons.inj same).1
        omega
      · rw [decimalBytes_of_lt smallM, decimalBytes_of_le (by omega)] at same
        have longer := congrArg List.length same
        have := length_decimalBytes_pos (n / 10)
        simp only [List.length_append, List.length_singleton] at longer
        omega
    · by_cases smallN : n < 10
      · rw [decimalBytes_of_le (by omega), decimalBytes_of_lt smallN] at same
        have longer := congrArg List.length same
        have := length_decimalBytes_pos (m / 10)
        simp only [List.length_append, List.length_singleton] at longer
        omega
      · rw [decimalBytes_of_le (by omega), decimalBytes_of_le (show 10 ≤ n by omega)] at same
        obtain ⟨front, last⟩ := List.append_inj' same rfl
        have high := ih (m / 10) (by omega) front
        have low := digits (List.cons.inj last).1
        omega

/-- The digits a printing loop has to find: none for zero. -/
def digitsBefore (n : Nat) : List UInt8 := if n = 0 then [] else decimalBytes n

theorem digitsBefore_step {n : Nat} (some : n ≠ 0) : digitsBefore n = digitsBefore (n / 10) ++ [lastDigit n] := by
  rw [digitsBefore, if_neg some, digitsBefore]
  by_cases small : n < 10
  · rw [if_pos (by omega), decimalBytes_of_lt small, List.nil_append]
  · rw [if_neg (by omega), decimalBytes_of_le (by omega)]

end Library
