import Mathlib.Data.List.GetD

namespace Library

/-- A digit of lowercase hexadecimal as an ASCII byte. -/
def hexDigit (n : Nat) : UInt8 := UInt8.ofNat (if n < 10 then 48 + n else 87 + n)

/-- A byte string in lowercase hexadecimal, the high half of each byte first. -/
def toHex : List UInt8 → List UInt8
  | [] => []
  | b :: rest => hexDigit (b.toNat / 16) :: hexDigit (b.toNat % 16) :: toHex rest

variable {bytes other text : List UInt8} {a b : Nat}

theorem hexDigit_inj (left : a < 16) (right : b < 16) (same : hexDigit a = hexDigit b) : a = b := by
  have checked : ∀ a < 16, ∀ b < 16, hexDigit a = hexDigit b → a = b := by decide
  exact checked a left b right same

theorem toNat_high (byte : UInt8) : (byte >>> 4).toNat = byte.toNat / 16 := by
  simp [UInt8.toNat_shiftRight, Nat.shiftRight_eq_div_pow]

theorem toNat_low (byte : UInt8) : (byte &&& 0x0f).toNat = byte.toNat % 16 := by
  rw [UInt8.toNat_and]
  exact Nat.and_two_pow_sub_one_eq_mod byte.toNat 4

theorem toHex_inj (same : toHex bytes = toHex other) : bytes = other := by
  induction bytes generalizing other with
  | nil =>
    cases other with
    | nil => rfl
    | cons c others => cases same
  | cons b rest ih =>
    cases other with
    | nil => cases same
    | cons c others =>
      rw [toHex, toHex, List.cons.injEq, List.cons.injEq] at same
      obtain ⟨high, low, behind⟩ := same
      have boundB := b.toNat_lt
      have boundC := c.toNat_lt
      have quotient := hexDigit_inj (by omega) (by omega) high
      have remainder := hexDigit_inj (by omega) (by omega) low
      have byte : b = c := UInt8.toNat_inj.mp (by omega)
      rw [byte, ih behind]

@[simp] theorem length_toHex (bytes : List UInt8) : (toHex bytes).length = 2 * bytes.length := by
  induction bytes with
  | nil => rfl
  | cons b rest ih =>
    rw [toHex, List.length_cons, List.length_cons, List.length_cons, ih]
    omega

section Table
variable {table : List UInt8} (digits : ∀ n < 16, table.getD n 0 = hexDigit n)

include digits in
theorem table_halves (byte : UInt8) : table.getD (byte >>> 4).toNat 0 = hexDigit (byte.toNat / 16) ∧
    table.getD (byte &&& 0x0f).toNat 0 = hexDigit (byte.toNat % 16) := by
  have bound := byte.toNat_lt
  rw [toNat_high, toNat_low]
  exact ⟨digits _ (by omega), digits _ (by omega)⟩

include digits in
/-- The two characters of each byte, looked up in a table of the digits and
compared one after the other, decide whether a text is the hexadecimal form of
a byte string. -/
theorem eq_toHex_iff : text = toHex bytes ↔ text.length = 2 * bytes.length ∧ ∀ i < bytes.length,
    text.getD (2 * i) 0 = table.getD (bytes.getD i 0 >>> 4).toNat 0 ∧
    text.getD (2 * i + 1) 0 = table.getD (bytes.getD i 0 &&& 0x0f).toNat 0 := by
  induction bytes generalizing text with
  | nil => simp [toHex]
  | cons b rest ih =>
    obtain ⟨highDigit, lowDigit⟩ := table_halves digits b
    constructor
    · rintro rfl
      refine ⟨length_toHex _, ?_⟩
      intro i bound
      cases i with
      | zero => exact ⟨highDigit.symm, lowDigit.symm⟩
      | succ i => exact (ih.mp rfl).2 i (by simpa using bound)
    · rintro ⟨length, cells⟩
      obtain ⟨hi, lo, behind, rfl⟩ : ∃ hi lo behind, text = hi :: lo :: behind := by
        cases text with
        | nil => simp at length
        | cons hi rest =>
          cases rest with
          | nil =>
            simp only [List.length_cons, List.length_nil] at length
            omega
          | cons lo behind => exact ⟨hi, lo, behind, rfl⟩
      obtain ⟨high, low⟩ := cells 0 (by simp)
      have tail : behind = toHex rest :=
        ih.mpr ⟨by simp only [List.length_cons] at length; omega, fun i bound => cells (i + 1) (by simpa using bound)⟩
      rw [toHex, ← tail, ← highDigit, ← lowDigit]
      exact congrArg₂ List.cons high (congrArg (List.cons · behind) low)

end Table

end Library
