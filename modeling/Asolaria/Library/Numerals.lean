import Asolaria.Library.Text

namespace Library

/-- The digits of an unsigned number, refused where the number reaches the bound. -/
def parseDigitsBelow (bound acc : Nat) : List Char → Option Nat
  | [] => some acc
  | c :: rest =>
    if c.isDigit then
      let n := 10 * acc + (c.toNat - '0'.toNat)
      if n < bound then parseDigitsBelow bound n rest else none
    else none

/-- `str::parse` for an unsigned integer type: one plus sign may stand in front. -/
def parseUnsigned (bound : Nat) : List Char → Option Nat
  | [] => none
  | first :: rest =>
    if rest.isEmpty && (first == '+' || first == '-') then none
    else if first == '+' then parseDigitsBelow bound 0 rest
    else parseDigitsBelow bound 0 (first :: rest)

variable {bound acc : Nat} {digits : List Char}

theorem le_ofDigitChars (acc : Nat) (digits : List Char) : acc ≤ Nat.ofDigitChars 10 digits acc := by
  rw [Nat.ofDigitChars_eq_ofDigitChars_zero]
  have scale : 1 * acc ≤ 10 ^ digits.length * acc := Nat.mul_le_mul_right acc (Nat.pow_pos (by decide))
  omega

/-- A text of digits is read as its number if that is below the bound. -/
theorem parseDigitsBelow_eq (plain : ∀ c ∈ digits, c.isDigit = true) (small : acc < bound) :
    parseDigitsBelow bound acc digits =
      if Nat.ofDigitChars 10 digits acc < bound then some (Nat.ofDigitChars 10 digits acc) else none := by
  induction digits generalizing acc with
  | nil => rw [Nat.ofDigitChars_nil, if_pos small, parseDigitsBelow]
  | cons c rest ih =>
    obtain ⟨digit, others⟩ := List.forall_mem_cons.mp plain
    rw [parseDigitsBelow, if_pos digit, Nat.ofDigitChars_cons]
    dsimp only
    split
    · next fits => exact ih others fits
    · next large =>
      have grows := le_ofDigitChars (10 * acc + (c.toNat - '0'.toNat)) rest
      rw [if_neg (by omega)]

/-- A number in decimal is read back where it is below the bound. -/
theorem parseUnsigned_decimal (n : Nat) :
    parseUnsigned bound (Nat.toDigits 10 n) = if n < bound then some n else none := by
  have plain : ∀ c ∈ Nat.toDigits 10 n, c.isDigit = true := fun c member =>
    Nat.isDigit_of_mem_toDigits (by decide) (by decide) member
  have value : Nat.ofDigitChars 10 (Nat.toDigits 10 n) 0 = n := Nat.ofDigitChars_ten_toDigits
  obtain ⟨first, rest, cut⟩ := List.exists_cons_of_ne_nil (Nat.toDigits_ne_nil (b := 10) (n := n))
  have digit : first.isDigit = true := plain first (by rw [cut]; exact List.mem_cons_self)
  have noPlus : first ≠ '+' := by
    rintro rfl
    cases digit
  have noMinus : first ≠ '-' := by
    rintro rfl
    cases digit
  rw [cut, parseUnsigned, beq_eq_false_iff_ne.mpr noPlus, beq_eq_false_iff_ne.mpr noMinus, Bool.or_self, Bool.and_false,
    if_neg Bool.false_ne_true, if_neg Bool.false_ne_true, ← cut]
  rcases Nat.eq_zero_or_pos bound with rfl | positive
  · rw [cut, parseDigitsBelow, if_pos digit, if_neg (Nat.not_lt_zero _), if_neg (Nat.not_lt_zero _)]
  · rw [parseDigitsBelow_eq plain positive, value]

end Library
