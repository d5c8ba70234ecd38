import Asolaria.AgentRuntime.Registry
import Asolaria.Library.FnvGap

namespace Asolaria.AgentRuntime
open Library Syscall

/-- The 48 bits that a PID keeps of the hash. -/
def hex12 (handle : UInt64) (role : AgentRole) (vantage : VantageId) (tier : AccessTier) : UInt64 :=
  fnv1a64 [handle, role.code, vantage.code, tier.code.toUInt64] &&& 0x0000FFFFFFFFFFFF

/-- The bytes of a number as they are hashed, the least significant one first. -/
def leBytes (width n : Nat) : List UInt8 := (beBytes width n).reverse

theorem length_leBytes (width n : Nat) : (leBytes width n).length = width := by
  rw [leBytes, List.length_reverse, length_beBytes]

variable {handle handle' : UInt64} {role : AgentRole} {vantage : VantageId} {tier tier' : AccessTier}

theorem toNat_hex12 : (hex12 handle role vantage tier).toNat =
    (fnv1a64 [handle, role.code, vantage.code, tier.code.toUInt64]).toNat % 2 ^ 48 := by
  rw [hex12, UInt64.toNat_and]
  exact Nat.and_two_pow_sub_one_eq_mod _ 48

theorem fnv1a64_eq (parts : List UInt64) :
    fnv1a64 parts = (parts.flatMap fun p => leBytes 8 p.toNat).foldl Fnv1a.step Fnv1a.offsetBasis := by
  rw [List.foldl_flatMap]
  rfl

/-- The four low bytes come first. -/
theorem leBytes_eight (n : Nat) : leBytes 8 n = leBytes 4 n ++ leBytes 4 (n / 2 ^ 32) := by
  have split : beBytes 8 n = beBytes 4 (n / 2 ^ 32) ++ beBytes 4 n := by
    simp only [beBytes, Nat.div_div_eq_div_mul, List.cons_append, List.nil_append]
    rfl
  rw [leBytes, split, List.reverse_append]
  rfl

theorem leBytes_code {n : Nat} (small : n < 8) : leBytes 8 n = UInt8.ofNat n :: Fnv1a.zeros 7 := by
  have table : ∀ n < 8, leBytes 8 n = UInt8.ofNat n :: Fnv1a.zeros 7 := by decide
  exact table n small

/-- A role, a vantage and a tier are one byte each, with zeros behind it. -/
def codeBytes (role : AgentRole) (vantage : VantageId) (tier : AccessTier) : List UInt8 :=
  UInt8.ofNat role.code.toNat :: Fnv1a.zeros 7 ++
    (UInt8.ofNat vantage.code.toNat :: Fnv1a.zeros 7 ++ UInt8.ofNat tier.code.toNat :: Fnv1a.zeros 7)

theorem role_code_lt (role : AgentRole) : role.code.toNat < 8 := by cases role <;> decide

theorem vantage_code_lt (vantage : VantageId) : vantage.code.toNat < 8 := by cases vantage <;> decide

theorem tier_code_lt (tier : AccessTier) : tier.code.toNat < 8 := by cases tier <;> decide

theorem tier_code_inj (same : tier.code = tier'.code) : tier = tier' := by
  cases tier <;> cases tier' <;> first | rfl | cases same

theorem hex12_eq_iff : hex12 handle role vantage tier = hex12 handle' role vantage tier' ↔
    ((leBytes 4 handle.toNat ++ (leBytes 4 (handle.toNat / 2 ^ 32) ++ codeBytes role vantage tier)).foldl
        Fnv1a.step Fnv1a.offsetBasis).toNat % 2 ^ 48 =
      ((leBytes 4 handle'.toNat ++ (leBytes 4 (handle'.toNat / 2 ^ 32) ++ codeBytes role vantage tier')).foldl
        Fnv1a.step Fnv1a.offsetBasis).toNat % 2 ^ 48 := by
  have hashed (handle : UInt64) (tier : AccessTier) : fnv1a64 [handle, role.code, vantage.code, tier.code.toUInt64] =
      (leBytes 4 handle.toNat ++ (leBytes 4 (handle.toNat / 2 ^ 32) ++ codeBytes role vantage tier)).foldl
        Fnv1a.step Fnv1a.offsetBasis := by
    have code : tier.code.toUInt64.toNat = tier.code.toNat := UInt8.toNat_toUInt64 _
    rw [fnv1a64_eq, List.flatMap_cons, List.flatMap_cons, List.flatMap_cons, List.flatMap_cons, List.flatMap_nil,
      List.append_nil, code, leBytes_code (role_code_lt role), leBytes_code (vantage_code_lt vantage),
      leBytes_code (tier_code_lt tier), leBytes_eight, List.append_assoc]
    rfl
  rw [← UInt64.toNat_inj, toNat_hex12, toNat_hex12, hashed, hashed]

/-- Handles with the same upper half are told apart in every tier. -/
theorem hex12_inj (half : handle.toNat / 2 ^ 32 = handle'.toNat / 2 ^ 32)
    (same : hex12 handle role vantage tier = hex12 handle' role vantage tier) : handle = handle' := by
  rw [hex12_eq_iff, half] at same
  generalize leBytes 4 (handle'.toNat / 2 ^ 32) ++ codeBytes role vantage tier = behind at same
  rw [List.foldl_append, List.foldl_append] at same
  have front := (Fnv1a.foldl_step_mod_iff _ (show 48 ≤ 64 by decide)).mp same
  have low := Fnv1a.foldl_step_inj ((length_leBytes ..).trans (length_leBytes ..).symm)
    (Nat.le_of_eq (length_leBytes ..)) front
  have bytes : leBytes 8 handle.toNat = leBytes 8 handle'.toNat := by
    rw [leBytes_eight, leBytes_eight, low, half]
  exact beBytes_toNat_inj.mp (List.reverse_injective bytes)

/-- Handles of 32 bits are told apart whatever their tiers are. -/
theorem tier_eq_of_hex12_eq (small : handle.toNat < 2 ^ 32) (small' : handle'.toNat < 2 ^ 32)
    (same : hex12 handle role vantage tier = hex12 handle' role vantage tier') : tier = tier' := by
  have byte {n : Nat} (few : n < 8) : (UInt8.ofNat n).toNat < 8 := by
    rw [UInt8.toNat_ofNat']
    omega
  have upper : leBytes 4 0 = Fnv1a.zeros 4 := by decide
  rw [hex12_eq_iff, Nat.div_eq_of_lt small, Nat.div_eq_of_lt small', upper] at same
  have told := Fnv1a.last_told (length_leBytes ..) (length_leBytes ..) (byte (role_code_lt role)) (byte (vantage_code_lt vantage))
    (byte (tier_code_lt tier)) (byte (tier_code_lt tier')) same
  rw [UInt8.ofNat_toNat, UInt8.ofNat_toNat] at told
  exact tier_code_inj told

end Asolaria.AgentRuntime
