import Mathlib.Data.Nat.Bitwise
import Mathlib.Data.Nat.ModEq

namespace Library.Fnv1a

def prime : UInt64 := 0x00000100000001b3

def offsetBasis : UInt64 := 0xcbf29ce484222325

/-- The state after one more byte. -/
def step (h : UInt64) (b : UInt8) : UInt64 := (h ^^^ b.toUInt64) * prime

/-- FNV-1a with 64 bits. -/
def hash (bytes : List UInt8) : UInt64 := bytes.foldl step offsetBasis

variable {h h' : UInt64} {k : Nat}

/-- The low bits of a state after a byte. -/
theorem toNat_step_mod (h : UInt64) (b : UInt8) (width : k ≤ 64) :
    (step h b).toNat % 2 ^ k = (h.toNat ^^^ b.toNat) * prime.toNat % 2 ^ k := by
  rw [step, UInt64.toNat_mul, UInt64.toNat_xor, UInt8.toNat_toUInt64,
    Nat.mod_mod_of_dvd _ (Nat.pow_dvd_pow 2 width)]

theorem xor_mod_iff {x y b : Nat} : (x ^^^ b) % 2 ^ k = (y ^^^ b) % 2 ^ k ↔ x % 2 ^ k = y % 2 ^ k := by
  rw [Nat.xor_mod_two_pow, Nat.xor_mod_two_pow]
  exact Nat.xor_left_inj

theorem mul_prime_mod_iff {x y : Nat} :
    x * prime.toNat % 2 ^ k = y * prime.toNat % 2 ^ k ↔ x % 2 ^ k = y % 2 ^ k := by
  have odd : Nat.gcd (2 ^ k) prime.toNat = 1 := Nat.Coprime.pow_left k (by decide)
  exact ⟨Nat.ModEq.cancel_right_of_coprime odd, Nat.ModEq.mul_right _⟩

/-- What comes behind neither hides nor makes a difference in the low bits. -/
theorem foldl_step_mod_iff (bytes : List UInt8) (width : k ≤ 64) :
    (bytes.foldl step h).toNat % 2 ^ k = (bytes.foldl step h').toNat % 2 ^ k ↔
      h.toNat % 2 ^ k = h'.toNat % 2 ^ k := by
  induction bytes generalizing h h' with
  | nil => exact Iff.rfl
  | cons b bytes ih =>
    rw [List.foldl_cons, List.foldl_cons, ih, toNat_step_mod h b width, toNat_step_mod h' b width,
      mul_prime_mod_iff, xor_mod_iff]

/-- A difference in the last byte is carried by the prime beyond the last
byte of the product. -/
theorem mul_prime_apart {x y : Nat} (less : x < y) (near : x / 256 = y / 256) :
    x * prime.toNat % 2 ^ 63 / 256 ≠ y * prime.toNat % 2 ^ 63 / 256 := by
  obtain ⟨d, rfl⟩ := Nat.exists_eq_add_of_lt less
  have gap : (x + d + 1) * prime.toNat = x * prime.toNat + (d + 1) * prime.toNat := by
    rw [Nat.add_assoc, Nat.add_mul]
  have wide : 1099511628211 ≤ (d + 1) * prime.toNat := Nat.le_mul_of_pos_left _ (Nat.succ_pos d)
  have narrow : (d + 1) * prime.toNat ≤ 255 * 1099511628211 := Nat.mul_le_mul_right prime.toNat (by omega)
  rw [gap]
  clear gap near
  generalize (d + 1) * prime.toNat = carried at wide narrow
  generalize x * prime.toNat = product
  omega

theorem mul_prime_near {x y : Nat} (near : x / 256 = y / 256)
    (same : x * prime.toNat % 2 ^ 63 / 256 = y * prime.toNat % 2 ^ 63 / 256) : x = y := by
  rcases Nat.lt_trichotomy x y with less | equal | greater
  · exact absurd same (mul_prime_apart less near)
  · exact equal
  · exact absurd same.symm (mul_prime_apart greater near.symm)

theorem xor_byte_div (x : Nat) (b : UInt8) : (x ^^^ b.toNat) / 256 = x / 256 := by
  have byte : b.toNat / 2 ^ 8 = 0 := Nat.div_eq_of_lt b.toNat_lt
  show (x ^^^ b.toNat) / 2 ^ 8 = x / 2 ^ 8
  rw [Nat.xor_div_two_pow, byte, Nat.xor_zero]

/-- The state after two bytes tells which they were, even without its top
bit. -/
theorem two_steps_inj {a b a' b' : UInt8}
    (same : (step (step h a) b).toNat % 2 ^ 63 = (step (step h a') b').toNat % 2 ^ 63) : a = a' ∧ b = b' := by
  rw [toNat_step_mod _ b (by decide), toNat_step_mod _ b' (by decide), mul_prime_mod_iff] at same
  have above (h : UInt64) (a b : UInt8) :
      ((step h a).toNat ^^^ b.toNat) % 2 ^ 63 / 256 = (h.toNat ^^^ a.toNat) * prime.toNat % 2 ^ 63 / 256 := by
    rw [← toNat_step_mod h a (by decide)]
    have halves (n : Nat) : n % 2 ^ 63 / 256 = n / 256 % 2 ^ 55 := by omega
    rw [halves, halves, xor_byte_div]
  have first : h.toNat ^^^ a.toNat = h.toNat ^^^ a'.toNat := by
    refine mul_prime_near ?_ ?_
    · rw [xor_byte_div, xor_byte_div]
    · rw [← above h a b, ← above h a' b', same]
  obtain rfl : a = a' := UInt8.toNat_inj.mp (Nat.xor_right_inj.mp first)
  refine ⟨rfl, UInt8.toNat_inj.mp ?_⟩
  rw [Nat.xor_comm, Nat.xor_comm (step h a).toNat, Nat.xor_mod_two_pow, Nat.xor_mod_two_pow, Nat.xor_left_inj] at same
  have small := b.toNat_lt
  have small' := b'.toNat_lt
  omega

end Library.Fnv1a
