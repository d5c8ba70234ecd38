import Mathlib.Algebra.Group.Nat.Defs
import Mathlib.Data.List.Basic

namespace Library

/-- The big-endian bytes of the low `width` bytes of a number. -/
def beBytes : Nat → Nat → List UInt8
  | 0, _ => []
  | width + 1, n => UInt8.ofNat (n / 256 ^ width) :: beBytes width n

/-- The number whose big-endian bytes these are. -/
def ofBytes : List UInt8 → Nat
  | [] => 0
  | byte :: rest => byte.toNat * 256 ^ rest.length + ofBytes rest

@[simp] theorem length_beBytes (width n : Nat) : (beBytes width n).length = width := by
  induction width with
  | zero => rfl
  | succ width ih => rw [beBytes, List.length_cons, ih]

theorem ofBytes_lt (bytes : List UInt8) : ofBytes bytes < 256 ^ bytes.length := by
  induction bytes with
  | nil => decide
  | cons byte rest ih =>
    have small : byte.toNat + 1 ≤ 256 := byte.toNat_lt
    have scaled := Nat.mul_le_mul_right (256 ^ rest.length) small
    rw [Nat.add_mul, Nat.one_mul] at scaled
    rw [ofBytes, List.length_cons, Nat.pow_succ, Nat.mul_comm _ 256]
    omega

/-- Bytes above the low `width` of them do not show. -/
theorem beBytes_add_mul (width n k : Nat) : beBytes width (n + k * 256 ^ width) = beBytes width n := by
  induction width generalizing k with
  | zero => rfl
  | succ width ih =>
    have split : n + k * 256 ^ (width + 1) = n + k * 256 * 256 ^ width := by
      rw [Nat.pow_succ, Nat.mul_assoc, Nat.mul_comm 256]
    rw [beBytes, beBytes, split, ih, Nat.add_mul_div_right _ _ (Nat.pow_pos (by decide))]
    congr 1
    apply UInt8.toNat_inj.mp
    rw [UInt8.toNat_ofNat', UInt8.toNat_ofNat']
    omega

theorem beBytes_ofBytes (bytes : List UInt8) : beBytes bytes.length (ofBytes bytes) = bytes := by
  induction bytes with
  | nil => rfl
  | cons byte rest ih =>
    have high : (byte.toNat * 256 ^ rest.length + ofBytes rest) / 256 ^ rest.length = byte.toNat := by
      rw [Nat.add_comm, Nat.add_mul_div_right _ _ (Nat.pow_pos (by decide)), Nat.div_eq_of_lt (ofBytes_lt rest), Nat.zero_add]
    rw [List.length_cons, beBytes, ofBytes, high, UInt8.ofNat_toNat, Nat.add_comm, beBytes_add_mul, ih]

theorem ofBytes_beBytes {width n : Nat} (fits : n < 256 ^ width) : ofBytes (beBytes width n) = n := by
  induction width generalizing n with
  | zero =>
    have zero : n = 0 := by simpa using fits
    rw [zero]
    rfl
  | succ width ih =>
    have divided := Nat.mod_add_div' n (256 ^ width)
    have high : n / 256 ^ width < 256 := Nat.div_lt_of_lt_mul (by rwa [Nat.pow_succ] at fits)
    have low := beBytes_add_mul width (n % 256 ^ width) (n / 256 ^ width)
    rw [divided] at low
    rw [beBytes, ofBytes, length_beBytes, UInt8.toNat_ofNat', Nat.mod_eq_of_lt high, low,
      ih (Nat.mod_lt _ (Nat.pow_pos (by decide)))]
    omega

/-- Numbers of the same width with the same digits are the same. -/
theorem eq_of_digits {base width n m : Nat} (left : n < base ^ width) (right : m < base ^ width)
    (same : ∀ i < width, n / base ^ i % base = m / base ^ i % base) : n = m := by
  have low : ∀ i ≤ width, n % base ^ i = m % base ^ i := by
    intro i bound
    induction i with
    | zero => rw [Nat.pow_zero, Nat.mod_one, Nat.mod_one]
    | succ i ih => rw [Nat.mod_pow_succ, Nat.mod_pow_succ, ih (by omega), same i (by omega)]
  have whole := low width (Nat.le_refl width)
  rwa [Nat.mod_eq_of_lt left, Nat.mod_eq_of_lt right] at whole

/-- Numbers that fit are told apart by their bytes. -/
theorem beBytes_inj {width n m : Nat} (left : n < 256 ^ width) (right : m < 256 ^ width) :
    beBytes width n = beBytes width m ↔ n = m := by
  constructor
  · intro same
    rw [← ofBytes_beBytes left, same, ofBytes_beBytes right]
  · rintro rfl
    rfl

theorem beBytes_toNat_inj {a b : UInt64} : beBytes 8 a.toNat = beBytes 8 b.toNat ↔ a = b :=
  (beBytes_inj a.toNat_lt b.toNat_lt).trans UInt64.toNat_inj

/-- A word has a fixed width, so what stands behind its bytes is known too. -/
theorem beBytes_append_inj {a b : UInt64} {x y : List UInt8} :
    beBytes 8 a.toNat ++ x = beBytes 8 b.toNat ++ y ↔ a = b ∧ x = y := by
  constructor
  · intro same
    have width : (beBytes 8 a.toNat).length = (beBytes 8 b.toNat).length := by rw [length_beBytes, length_beBytes]
    exact ⟨beBytes_toNat_inj.mp (List.append_inj same width).1, (List.append_inj same width).2⟩
  · rintro ⟨rfl, rfl⟩
    rfl

/-- Any eight bytes are the bytes of a word. -/
theorem exists_beBytes_eq {bytes : List UInt8} (length : bytes.length = 8) :
    ∃ word : UInt64, beBytes 8 word.toNat = bytes := by
  have small : ofBytes bytes < 2 ^ 64 := by simpa [length] using ofBytes_lt bytes
  have read := beBytes_ofBytes bytes
  refine ⟨UInt64.ofNat (ofBytes bytes), ?_⟩
  rwa [UInt64.toNat_ofNat_of_lt' small, ← length]

/-- Addition that reports overflow of a 64-bit word instead of wrapping. -/
def checkedAdd (a b : UInt64) : Option UInt64 :=
  if a.toNat + b.toNat < 2 ^ 64 then some (a + b) else none

/-- Addition that stops at the largest 64-bit word. -/
def saturatingAdd (a b : UInt64) : UInt64 :=
  if a.toNat + b.toNat < 2 ^ 64 then a + b else UInt64.ofNat (2 ^ 64 - 1)

theorem toNat_add_of_lt {a b : UInt64} (fits : a.toNat + b.toNat < 2 ^ 64) :
    (a + b).toNat = a.toNat + b.toNat := by
  rw [UInt64.toNat_add, Nat.mod_eq_of_lt fits]

theorem toNat_ofNat_succ {n : Nat} (fits : n + 1 < 2 ^ 64) : (UInt64.ofNat n + 1).toNat = n + 1 := by
  have small : (UInt64.ofNat n).toNat = n := UInt64.toNat_ofNat_of_lt' (Nat.lt_of_succ_lt fits)
  rw [toNat_add_of_lt (by rw [small]; exact fits), small]
  rfl

theorem checkedAdd_eq_some {a b : UInt64} (fits : a.toNat + b.toNat < 2 ^ 64) :
    checkedAdd a b = some (a + b) := by
  rw [checkedAdd, if_pos fits]

theorem checkedAdd_eq_none {a b : UInt64} (overflow : 2 ^ 64 ≤ a.toNat + b.toNat) :
    checkedAdd a b = none := by
  rw [checkedAdd, if_neg (Nat.not_lt.mpr overflow)]

@[simp] theorem checkedAdd_zero (a : UInt64) : checkedAdd a 0 = some a := by
  rw [checkedAdd_eq_some (by simpa using a.toNat_lt), UInt64.add_zero]

theorem le_roundUp (n : Nat) {a : Nat} (positive : 0 < a) : n ≤ (n + a - 1) / a * a := by
  have divided := Nat.div_add_mod (n + a - 1) a
  have small := Nat.mod_lt (n + a - 1) positive
  rw [Nat.mul_comm]
  generalize a * ((n + a - 1) / a) = multiple at divided ⊢
  omega

/-- Rounding up reaches no further than the next multiple. -/
theorem roundUp_le {n a m : Nat} (positive : 0 < a) (bound : n ≤ m * a) : (n + a - 1) / a * a ≤ m * a := by
  apply Nat.mul_le_mul_right
  rw [← Nat.lt_succ_iff, Nat.div_lt_iff_lt_mul positive, Nat.succ_mul]
  omega

/-- Bytes whose bits do not meet are put together by their sum. -/
theorem toNat_or_of_lt {high low : UInt8} {k n : Nat} (multiple : high.toNat = 2 ^ k * n) (below : low.toNat < 2 ^ k) :
    (high ||| low).toNat = high.toNat + low.toNat := by
  rw [UInt8.toNat_or, multiple, Nat.two_pow_add_eq_or_of_lt below]

/-- Clearing the low bits of a word rounds it down to a multiple of the
power of two. -/
theorem toNat_and_not_mask {x align : UInt64} {k : Nat} (power : align.toNat = 2 ^ k) :
    (x &&& ~~~(align - 1)).toNat = x.toNat / 2 ^ k * 2 ^ k := by
  have below : 2 ^ k < 2 ^ 64 := power ▸ align.toNat_lt
  have width : k < 64 := (Nat.pow_lt_pow_iff_right (by decide)).mp below
  have mask : (align - 1).toNat = 2 ^ k - 1 := by
    rw [UInt64.toNat_sub_of_le, power]
    · rfl
    · rw [UInt64.le_iff_toNat_le, power]
      exact Nat.one_le_two_pow
  have complement : UInt64.size - 1 - (2 ^ k - 1) = 2 ^ 64 - (2 ^ k - 1 + 1) := by
    show 2 ^ 64 - 1 - (2 ^ k - 1) = _
    omega
  have scaled : x.toNat / 2 ^ k * 2 ^ k = x.toNat >>> k <<< k := by
    rw [Nat.shiftLeft_eq, Nat.shiftRight_eq_div_pow]
  rw [UInt64.toNat_and, UInt64.toNat_not, mask, complement, scaled]
  apply Nat.eq_of_testBit_eq
  intro i
  rw [Nat.testBit_and, Nat.testBit_two_pow_sub_succ (by omega), Nat.testBit_two_pow_sub_one, Nat.testBit_shiftLeft,
    Nat.testBit_shiftRight]
  by_cases low : i < k
  · simp [low, Nat.not_le.mpr low]
  · have above := Nat.not_lt.mp low
    have inside : i - k + k = i := by omega
    by_cases high : i < 64
    · simp [low, high, above, inside, Nat.add_comm k]
    · have outside : x.toNat.testBit i = false :=
        Nat.testBit_lt_two_pow (Nat.lt_of_lt_of_le x.toNat_lt (Nat.pow_le_pow_right (by decide) (by omega)))
      simp [high, above, inside, outside, Nat.add_comm k]

end Library
