import Asolaria.Library.Guard
import Asolaria.Library.MachineInt
import Mathlib.Data.Fin.Basic

namespace Library.Base64

/-- The digits of RFC 4648, by their values. -/
def alphabet : List Char := "ABCDEFGHIJKLMNOPQRSTUVWXYZabcdefghijklmnopqrstuvwxyz0123456789+/".toList

def pad : Char := '='

def digit (n : Fin 64) : Char := alphabet.get n

def value (c : Char) : Option (Fin 64) := (List.finRange 64).find? fun n => digit n = c

/-- The number that digits write, the first of them highest. -/
def ofDigits (digits : List (Fin 64)) : Nat := digits.foldl (fun n d => 64 * n + d.val) 0

/-- The bytes of one group of two to four digits. There is one byte less, and
the bits that are left over below the last byte are zero. -/
def decodeGroup (digits : List (Fin 64)) : Option (List UInt8) :=
  let spare := 2 ^ (8 - 2 * digits.length)
  let n := ofDigits digits
  if n % spare = 0 then some (beBytes (digits.length - 1) (n / spare)) else none

/-- The digits of the last group, without its padding. -/
def unpad (a b c d : Char) : List Char :=
  if d = pad then if c = pad then [a, b] else [a, b, c] else [a, b, c, d]

/-- The decoder of RFC 4648 with canonical padding: only the last group may be
padded, and a character outside of the alphabet is refused. -/
def decode : List Char → Option (List UInt8)
  | [] => some []
  | a :: b :: c :: d :: rest => do
    let digits ← (if rest.isEmpty then unpad a b c d else [a, b, c, d]).mapM value
    let bytes ← decodeGroup digits
    let others ← decode rest
    return bytes ++ others
  | _ => none

/-- Digits of the alphabet, and behind them that many pads. -/
def Padded (pads : Nat) (text : List Char) : Prop :=
  ∃ digits : List Char, (∀ c ∈ digits, c ∈ alphabet) ∧ text = digits ++ List.replicate pads pad

theorem value_digit : ∀ n, value (digit n) = some n := by decide +kernel

theorem digit_mem (n : Fin 64) : digit n ∈ alphabet := List.get_mem _ _

theorem pad_not_mem : pad ∉ alphabet := by decide

theorem digit_ne_pad (n : Fin 64) : digit n ≠ pad := fun same => pad_not_mem (same ▸ digit_mem n)

theorem mapM_value (digits : List (Fin 64)) : (digits.map digit).mapM value = some digits := by
  induction digits with
  | nil => rfl
  | cons n digits ih => rw [List.map_cons, List.mapM_cons, value_digit, ih]; rfl

/-- A group that writes the number of some bytes, moved up over the bits that
are left over, stands for these bytes. -/
theorem decodeGroup_eq {digits : List (Fin 64)} {bytes : List UInt8} (length : digits.length = bytes.length + 1)
    (writes : ofDigits digits = ofBytes bytes * 2 ^ (8 - 2 * digits.length)) : decodeGroup digits = some bytes := by
  unfold decodeGroup
  dsimp only
  rw [writes, if_pos (Nat.mul_mod_left _ _), Nat.mul_div_cancel _ (Nat.two_pow_pos _), length, Nat.add_sub_cancel,
    beBytes_ofBytes]

theorem Padded.pads (count : Nat) : Padded count (List.replicate count pad) := ⟨[], by simp, rfl⟩

theorem Padded.append {pads : Nat} {text : List Char} (digits : List (Fin 64)) (padded : Padded pads text) :
    Padded pads (digits.map digit ++ text) := by
  obtain ⟨behind, inAlphabet, rfl⟩ := padded
  refine ⟨digits.map digit ++ behind, ?_, (List.append_assoc _ _ _).symm⟩
  rw [List.forall_mem_append]
  refine ⟨?_, inAlphabet⟩
  intro c member
  obtain ⟨n, _, rfl⟩ := List.mem_map.mp member
  exact digit_mem n

theorem Padded.ascii {pads : Nat} {text : List Char} (padded : Padded pads text) : ∀ c ∈ text, c.toNat < 128 := by
  obtain ⟨digits, inAlphabet, rfl⟩ := padded
  have low : ∀ c ∈ alphabet, c.toNat < 128 := forall_mem_of_all (by decide)
  rw [List.forall_mem_append]
  refine ⟨fun c member => low c (inAlphabet c member), ?_⟩
  intro c member
  rw [List.eq_of_mem_replicate member]
  decide

section Groups
variable {a b c d : Fin 64} {bytes others : List UInt8} {rest : List Char}

theorem decode_full (group : decodeGroup [a, b, c, d] = some bytes) (behind : decode rest = some others) :
    decode (digit a :: digit b :: digit c :: digit d :: rest) = some (bytes ++ others) := by
  have digits : (if rest.isEmpty then unpad (digit a) (digit b) (digit c) (digit d)
      else [digit a, digit b, digit c, digit d]) = [a, b, c, d].map digit := by
    rw [unpad, if_neg (digit_ne_pad d), ite_self]
    rfl
  rw [decode, digits, mapM_value, behind]
  simp [group]

theorem decode_two (group : decodeGroup [a, b, c] = some bytes) :
    decode [digit a, digit b, digit c, pad] = some bytes := by
  have digits : unpad (digit a) (digit b) (digit c) pad = [a, b, c].map digit := by
    rw [unpad, if_pos rfl, if_neg (digit_ne_pad c)]
    rfl
  rw [decode, List.isEmpty_nil, if_pos rfl, digits, mapM_value]
  simp [group, decode]

theorem decode_one (group : decodeGroup [a, b] = some bytes) :
    decode [digit a, digit b, pad, pad] = some bytes := by
  have digits : unpad (digit a) (digit b) pad pad = [a, b].map digit := by
    rw [unpad, if_pos rfl, if_pos rfl]
    rfl
  rw [decode, List.isEmpty_nil, if_pos rfl, digits, mapM_value]
  simp [group, decode]

end Groups

example : decode "Zm8=".toList = some [102, 111] ∧ decode "Zm9=".toList = none := by decide

end Library.Base64
