import Asolaria.Library.Fnv1a
import Mathlib.Data.Int.ModEq
import Mathlib.Data.List.Induction
import Mathlib.Tactic.LinearCombination

namespace Library.Fnv1a

/-- Two states differ by `d` in their low 48 bits. -/
def Apart (h h' : UInt64) (d : ℤ) : Prop := (h.toNat : ℤ) - h'.toNat ≡ d [ZMOD 2 ^ 48]

/-- A difference may become another one when a byte is mixed into each state:
only the last eight bits of the two states are replaced. -/
def Shifts (d d' : ℤ) : Prop :=
  (-255 ≤ d' % 256 - (d' - d) ∧ d' % 256 - (d' - d) ≤ 255) ∨
    (0 < d' % 256 ∧ -255 ≤ d' % 256 - 256 - (d' - d) ∧ d' % 256 - 256 - (d' - d) ≤ 255)

instance : DecidableRel Shifts := fun _ _ => inferInstanceAs (Decidable (_ ∨ _))

/-- The differences that `k` bytes can make of equal states: `a` in the low 40
bits in front of the last multiplication, and `high` in the eight bits above
behind it. -/
inductive Reached : Nat → ℤ → ℤ → Prop
  | start : Reached 0 0 0
  | next {k a high a'} : Reached k a high → Shifts (435 * a) a' → Reached (k + 1) a' (435 * high + a')

variable {h h' : UInt64} {b b' : UInt8} {d d' a high : ℤ} {k : Nat}

theorem Apart.congr (apart : Apart h h' d) (same : d ≡ d' [ZMOD 2 ^ 48]) : Apart h h' d' := apart.trans same

theorem apart_zero_iff : Apart h h' 0 ↔ h.toNat % 2 ^ 48 = h'.toNat % 2 ^ 48 := by
  rw [Apart, Int.modEq_iff_dvd]
  omega

theorem xor_shifts (x x' : Nat) (b b' : UInt8) :
    Shifts ((x : ℤ) - x') (((x ^^^ b.toNat : Nat) : ℤ) - (x' ^^^ b'.toNat : Nat)) := by
  have kept := xor_byte_div x b
  have kept' := xor_byte_div x' b'
  generalize x ^^^ b.toNat = y at kept ⊢
  generalize x' ^^^ b'.toNat = y' at kept' ⊢
  unfold Shifts
  omega

/-- A step carries the difference that the bytes leave. -/
theorem apart_step (h h' : UInt64) (b b' : UInt8) : Apart (step h b) (step h' b')
    ((((h.toNat ^^^ b.toNat : Nat) : ℤ) - (h'.toNat ^^^ b'.toNat : Nat)) * (2 ^ 40 + 435)) := by
  have carried (h : UInt64) (b : UInt8) :
      ((step h b).toNat : ℤ) ≡ ((h.toNat ^^^ b.toNat : Nat) : ℤ) * (2 ^ 40 + 435) [ZMOD 2 ^ 48] := by
    have word := toNat_step_mod h b (show 48 ≤ 64 by decide)
    have prime : prime.toNat = 2 ^ 40 + 435 := rfl
    rw [prime] at word
    exact_mod_cast congrArg (Nat.cast : Nat → ℤ) word
  rw [sub_mul]
  exact (carried h b).sub (carried h' b')

theorem Apart.shifted (apart : Apart h h' (435 * a + 2 ^ 40 * high)) (b b' : UInt8) :
    ∃ a', Shifts (435 * a) a' ∧
      Apart (step h b) (step h' b') (435 * a' + 2 ^ 40 * (435 * high + a')) := by
  have shifts := xor_shifts h.toNat h'.toNat b b'
  have carried := apart_step h h' b b'
  generalize ((h.toNat ^^^ b.toNat : Nat) : ℤ) - (h'.toNat ^^^ b'.toNat : Nat) = after at shifts carried
  rw [Apart, Int.modEq_iff_dvd] at apart
  obtain ⟨turns, wrapped⟩ := apart
  generalize (h.toNat : ℤ) - h'.toNat = before at shifts wrapped
  refine ⟨435 * a + (after - before), ?_, carried.congr ?_⟩
  · unfold Shifts at shifts ⊢
    omega
  · rw [Int.modEq_iff_dvd]
    refine ⟨turns * (2 ^ 40 + 435) - 2 ^ 32 * high, ?_⟩
    linear_combination (2 ^ 40 + 435) * wrapped

/-- A bound of the differences that `k` bytes can make. -/
def reach : Nat → ℤ
  | 0 => 0
  | k + 1 => 435 * reach k + 510

theorem Reached.bound (reached : Reached k a high) : -reach k ≤ a ∧ a ≤ reach k := by
  induction reached with
  | start => decide
  | next _ shifts ih =>
    unfold Shifts at shifts
    rw [reach]
    omega

theorem exists_concat {bytes : List UInt8} {n : Nat} (length : bytes.length = n + 1) :
    ∃ front b, front.length = n ∧ bytes = front ++ [b] := by
  have some : bytes ≠ [] := List.ne_nil_of_length_eq_add_one length
  refine ⟨bytes.dropLast, bytes.getLast some, ?_, (List.dropLast_concat_getLast some).symm⟩
  rw [List.length_dropLast, length, Nat.add_sub_cancel]

/-- Lists of one length make a difference that can be reached. -/
theorem exists_reached {bytes bytes' : List UInt8} (length : bytes.length = bytes'.length) (h : UInt64) :
    ∃ a high, Reached bytes.length a high ∧
      Apart (bytes.foldl step h) (bytes'.foldl step h) (435 * a + 2 ^ 40 * high) := by
  induction bytes using List.reverseRecOn generalizing bytes' with
  | nil =>
    obtain rfl := List.length_eq_zero_iff.mp length.symm
    exact ⟨0, 0, .start, apart_zero_iff.mpr rfl⟩
  | append_singleton front b ih =>
    rw [List.length_append, List.length_singleton] at length
    obtain ⟨front', b', sameLength, rfl⟩ := exists_concat length.symm
    obtain ⟨a, high, reached, apart⟩ := ih sameLength.symm
    obtain ⟨a', shifts, next⟩ := apart.shifted b b'
    refine ⟨a', 435 * high + a', ?_, ?_⟩
    · rw [List.length_append]
      exact .next reached shifts
    · rw [List.foldl_append, List.foldl_append]
      exact next

/-- Up to four bytes are told by the low 48 bits of the state behind them. -/
theorem foldl_step_inj {bytes bytes' : List UInt8} (length : bytes.length = bytes'.length) (few : bytes.length ≤ 4)
    (same : (bytes.foldl step h).toNat % 2 ^ 48 = (bytes'.foldl step h).toNat % 2 ^ 48) : bytes = bytes' := by
  have narrow : ∀ k ≤ 4, reach k < 2 ^ 39 := by decide
  induction bytes using List.reverseRecOn generalizing bytes' with
  | nil => exact (List.length_eq_zero_iff.mp length.symm).symm
  | append_singleton front b ih =>
    rw [List.length_append, List.length_singleton] at length
    obtain ⟨front', b', sameLength, rfl⟩ := exists_concat length.symm
    rw [List.length_append, List.length_singleton] at few
    obtain ⟨a, high, reached, apart⟩ := exists_reached sameLength.symm h
    obtain ⟨a', shifts, next⟩ := apart.shifted b b'
    have bound := (Reached.next reached shifts).bound
    have below := narrow _ few
    have closed : Apart (step (front.foldl step h) b) (step (front'.foldl step h) b') 0 := by
      rw [apart_zero_iff]
      rwa [List.foldl_append, List.foldl_append] at same
    have zero := (Int.ModEq.symm next).trans closed
    rw [Int.modEq_zero_iff_dvd] at zero
    -- what is small and vanishes is zero, and so it was one byte earlier
    obtain rfl : a' = 0 := by omega
    obtain rfl : a = 0 := by
      unfold Shifts at shifts
      omega
    have before : (front.foldl step h).toNat % 2 ^ 48 = (front'.foldl step h).toNat % 2 ^ 48 := by
      rw [← apart_zero_iff]
      refine apart.congr (Int.modEq_zero_iff_dvd.mpr ?_)
      omega
    obtain rfl := ih sameLength.symm (by omega) before
    rw [apart_zero_iff, toNat_step_mod _ b (by decide), toNat_step_mod _ b' (by decide), mul_prime_mod_iff,
      Nat.xor_mod_two_pow, Nat.xor_mod_two_pow, Nat.xor_right_inj] at closed
    have small := b.toNat_lt
    have small' := b'.toNat_lt
    obtain rfl : b = b' := UInt8.toNat_inj.mp (by omega)
    rfl

/-- A byte below eight in both states adds a little to their difference. -/
theorem Apart.small (apart : Apart h h' d) {b : UInt8} (small : b.toNat < 8) :
    ∃ k, -7 ≤ k ∧ k ≤ 7 ∧ Apart (step h b) (step h' b) ((d + 2 * k) * (2 ^ 40 + 435)) := by
  have mixed (x : Nat) : ∃ both ≤ 7, (x ^^^ b.toNat) + 2 * both = x + b.toNat := by
    have table : ∀ u < 8, ∀ v < 8, (u &&& v) ≤ 7 ∧ (u ^^^ v) + 2 * (u &&& v) = u + v := by decide
    obtain ⟨few, sum⟩ := table (x % 8) (Nat.mod_lt x (by decide)) b.toNat small
    have front : (x ^^^ b.toNat) / 8 = x / 8 := by
      change (x ^^^ b.toNat) / 2 ^ 3 = x / 2 ^ 3
      rw [Nat.xor_div_two_pow, Nat.div_eq_of_lt small, Nat.xor_zero]
    have back : (x ^^^ b.toNat) % 8 = x % 8 ^^^ b.toNat := by
      change (x ^^^ b.toNat) % 2 ^ 3 = x % 2 ^ 3 ^^^ b.toNat
      rw [Nat.xor_mod_two_pow, Nat.mod_eq_of_lt small]
    exact ⟨_, few, by omega⟩
  obtain ⟨both, few, sum⟩ := mixed h.toNat
  obtain ⟨both', few', sum'⟩ := mixed h'.toNat
  refine ⟨both' - both, by omega, by omega, (apart_step h h' b b).congr (Int.ModEq.mul_right _ ?_)⟩
  have kept : ((h.toNat ^^^ b.toNat : Nat) : ℤ) - (h'.toNat ^^^ b.toNat : Nat) =
      h.toNat - h'.toNat + 2 * (both' - both) := by omega
  rw [kept]
  exact Int.ModEq.add_right _ apart

def zeros (n : Nat) : List UInt8 := List.replicate n 0

theorem Apart.zeros (apart : Apart h h' d) (n : Nat) :
    Apart ((zeros n).foldl step h) ((zeros n).foldl step h') (d * (2 ^ 40 + 435) ^ n) := by
  induction n generalizing h h' d with
  | zero => rwa [pow_zero, mul_one]
  | succ n ih =>
    have first := apart_step h h' 0 0
    rw [UInt8.toNat_zero, Nat.xor_zero, Nat.xor_zero] at first
    rw [Fnv1a.zeros, List.replicate_succ, List.foldl_cons, List.foldl_cons, pow_succ', ← mul_assoc]
    exact ih (first.congr (Int.ModEq.mul_right _ apart))

theorem Apart.word (apart : Apart h h' d) {b : UInt8} (small : b.toNat < 8) :
    ∃ k, -7 ≤ k ∧ k ≤ 7 ∧
      Apart ((b :: Fnv1a.zeros 7).foldl step h) ((b :: Fnv1a.zeros 7).foldl step h') ((d + 2 * k) * (2 ^ 40 + 435) ^ 8) := by
  obtain ⟨k, low, up, mixed⟩ := apart.small small
  have behind := mixed.zeros 7
  have power (p : ℤ) : p * p ^ 7 = p ^ 8 := (pow_succ' p 7).symm
  rw [mul_assoc, power] at behind
  refine ⟨k, low, up, ?_⟩
  rwa [List.foldl_cons, List.foldl_cons]

/-- Two bytes below eight can only make states equal that agree but for such a
byte. -/
theorem apart_of_same {t t' : UInt8} (small : t.toNat < 8) (small' : t'.toNat < 8) (behind : List UInt8)
    (same : ((t :: behind).foldl step h).toNat % 2 ^ 48 = ((t' :: behind).foldl step h').toNat % 2 ^ 48) :
    ∃ e, -7 ≤ e ∧ e ≤ 7 ∧ Apart h h' e ∧ (e = 0 → t = t') := by
  rw [List.foldl_cons, List.foldl_cons, foldl_step_mod_iff behind (by decide), toNat_step_mod h t (by decide),
    toNat_step_mod h' t' (by decide), mul_prime_mod_iff] at same
  have split {x : Nat} {b : UInt8} (low : b.toNat < 8) : (x ^^^ b.toNat) % 2 ^ 48 / 2 ^ 3 = x % 2 ^ 48 / 2 ^ 3 := by
    rw [Nat.xor_mod_two_pow, Nat.mod_eq_of_lt (Nat.lt_trans low (by decide)), Nat.xor_div_two_pow,
      Nat.div_eq_of_lt low, Nat.xor_zero]
  have block : h.toNat % 2 ^ 48 / 2 ^ 3 = h'.toNat % 2 ^ 48 / 2 ^ 3 := by rw [← split small, same, split small']
  refine ⟨((h.toNat % 2 ^ 48 : Nat) : ℤ) - (h'.toNat % 2 ^ 48 : Nat), by omega, by omega, ?_, fun zero => ?_⟩
  · rw [Apart, Int.modEq_iff_dvd]
    omega
  · have equal : h.toNat % 2 ^ 48 = h'.toNat % 2 ^ 48 := by omega
    rw [Nat.xor_mod_two_pow, Nat.xor_mod_two_pow, equal, Nat.xor_right_inj] at same
    exact UInt8.toNat_inj.mp (by omega)

section Search

/-- The inverses of the prime and of its powers modulo 2^48. -/
def inverse : ℤ := 88337544549755

def inverse4 : ℤ := 155222915515505

def inverse8 : ℤ := 93352714222049

theorem modEq_of_mul {x y p c : ℤ} (one : p * c ≡ 1 [ZMOD 2 ^ 48]) (same : x * p ≡ y [ZMOD 2 ^ 48]) :
    x ≡ y * c [ZMOD 2 ^ 48] :=
  calc x = x * 1 := (mul_one x).symm
    _ ≡ x * (p * c) [ZMOD 2 ^ 48] := Int.ModEq.mul_left x one.symm
    _ = x * p * c := (mul_assoc x p c).symm
    _ ≡ y * c [ZMOD 2 ^ 48] := Int.ModEq.mul_right c same

theorem fourth : (2 ^ 40 + 435) ^ 4 * inverse4 ≡ 1 [ZMOD 2 ^ 48] := by decide

theorem eighth : (2 ^ 40 + 435) ^ 8 * inverse8 ≡ 1 [ZMOD 2 ^ 48] := by decide

/-- What may stand in the high bits when `k` bytes have made the difference
`a`, found from the last byte to the first. -/
def highs : Nat → ℤ → List ℤ
  | 0, a => if a = 0 then [0] else []
  | k + 1, a' => [-1, 0, 1, 2].flatMap fun j =>
      if Shifts (435 * (a' / 435 + j)) a' then (highs k (a' / 435 + j)).map fun high => 435 * high + a' else []

theorem Reached.mem_highs (reached : Reached k a high) : high ∈ highs k a := by
  induction reached with
  | start => decide
  | @next k a high a' _ shifts ih =>
    have quotient : a - a' / 435 ∈ [-1, 0, 1, 2] := by
      have narrow := shifts
      unfold Shifts at narrow
      simp only [List.mem_cons, List.not_mem_nil, or_false]
      omega
    refine List.mem_flatMap.mpr ⟨_, quotient, ?_⟩
    rw [show a' / 435 + (a - a' / 435) = a by omega, if_pos shifts]
    exact List.mem_map_of_mem ih

/-- What the difference behind four bytes must be, where four zeros, a byte
below eight and seven zeros, and another such byte and seven zeros bring it down
to `e`. -/
def required (k l e : ℤ) : ℤ := ((e * inverse8 - 2 * l) * inverse8 - 2 * k) * inverse4 % 2 ^ 48

/-- The number in the middle range with the given last 40 bits. -/
def signed (x : ℤ) : ℤ := (x + 2 ^ 39) % 2 ^ 40 - 2 ^ 39

/-- Four bytes can make the required difference, as far as the search tells. -/
def attainable (k l e : ℤ) : Bool :=
  let a := signed (required k l e * inverse)
  (-reach 4 ≤ a && a ≤ reach 4) && (highs 4 a).any fun high => (435 * a + 2 ^ 40 * high - required k l e) % 2 ^ 48 == 0

theorem attainable_of_reached {k l e : ℤ} (reached : Reached 4 a high)
    (same : 435 * a + 2 ^ 40 * high ≡ required k l e [ZMOD 2 ^ 48]) : attainable k l e = true := by
  have bound := reached.bound
  rw [Int.modEq_comm, Int.modEq_iff_dvd] at same
  have here : signed (required k l e * inverse) = a := by
    have limit : reach 4 < 2 ^ 39 := by decide
    unfold signed inverse
    omega
  simp only [attainable, here, Bool.and_eq_true, decide_eq_true_eq, List.any_eq_true, beq_iff_eq]
  exact ⟨bound, high, reached.mem_highs, Int.emod_eq_zero_of_dvd same⟩

def sevens : List ℤ := (List.range 15).map fun (i : Nat) => (i : ℤ) - 7

theorem mem_sevens {k : ℤ} (low : -7 ≤ k) (up : k ≤ 7) : k ∈ sevens :=
  List.mem_map.mpr ⟨(k + 7).toNat, List.mem_range.mpr (by omega), by omega⟩

/-- The search finds nothing but the difference of equal states. -/
theorem search_fails : (sevens.all fun k => sevens.all fun l => sevens.all fun e =>
    e == 0 || !attainable k l e) = true := by
  decide +kernel

/-- Four bytes and the zeros, and bytes below eight with zeros behind them: the
last of these is told, whatever the four bytes were. -/
theorem last_told {bytes bytes' : List UInt8} (length : bytes.length = 4) (length' : bytes'.length = 4) {r v t t' : UInt8}
    (smallR : r.toNat < 8) (smallV : v.toNat < 8) (smallT : t.toNat < 8) (smallT' : t'.toNat < 8)
    (same : ((bytes ++ (zeros 4 ++ (r :: zeros 7 ++ (v :: zeros 7 ++ t :: zeros 7)))).foldl step h).toNat % 2 ^ 48 =
      ((bytes' ++ (zeros 4 ++ (r :: zeros 7 ++ (v :: zeros 7 ++ t' :: zeros 7)))).foldl step h).toNat % 2 ^ 48) :
    t = t' := by
  simp only [List.foldl_append] at same
  obtain ⟨a, high, reached, apart⟩ := exists_reached (length.trans length'.symm) h
  rw [length] at reached
  obtain ⟨k, lowK, upK, mixed⟩ := (apart.zeros 4).word smallR
  obtain ⟨l, lowL, upL, mixed'⟩ := mixed.word smallV
  obtain ⟨e, lowE, upE, rest, told⟩ := apart_of_same smallT smallT' (zeros 7) same
  refine told ?_
  have last := mixed'.symm.trans rest
  have before := (modEq_of_mul eighth last).sub_right (2 * l)
  rw [add_sub_cancel_right] at before
  have first := (modEq_of_mul eighth before).sub_right (2 * k)
  rw [add_sub_cancel_right] at first
  have found := attainable_of_reached reached ((modEq_of_mul fourth first).trans (Int.mod_modEq _ _).symm)
  have none := search_fails
  simp only [List.all_eq_true] at none
  have missed := none k (mem_sevens lowK upK) l (mem_sevens lowL upL) e (mem_sevens lowE upE)
  rw [found, Bool.not_true, Bool.or_false, beq_iff_eq] at missed
  exact missed

end Search

end Library.Fnv1a
