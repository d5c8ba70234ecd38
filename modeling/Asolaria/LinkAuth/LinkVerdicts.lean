import Asolaria.Library.Rules
import Asolaria.LinkAuth.Hmac
import Asolaria.LinkAuth.VerbBinding

namespace Asolaria.LinkAuth
open Library

/-- `Allow` as success, any other verdict as the error it reports. -/
def LinkVerdict.result : LinkVerdict → Except LinkVerdict Unit
  | .allow => .ok ()
  | verdict => .error verdict

variable (req : LinkRequest) (sharedKey : List UInt8) (grantedOwnerPids : List String) (nowUnixS maxSkewS : UInt64)

def LinkRequest.Filled : Prop := req.ownerPid ≠ "" ∧ req.host ≠ "" ∧ req.verb ≠ "" ∧ req.nonce ≠ ""

/-- The exact distance between the two clocks is within the window. -/
def LinkRequest.Fresh : Prop := ((nowUnixS.toNat : Int) - req.tsUnixS.toNat).natAbs ≤ maxSkewS.toNat

/-- The text is the MAC of the canonical message in lowercase hexadecimal. -/
def LinkRequest.Signed : Prop := utf8 req.hmacHex = toHex (hmac sha256Bytes 64 sharedKey req.message)

/-- The checks of the gate, in the order in which they are reported. -/
def linkRules : List (Prop × LinkVerdict) :=
  [(req.Filled ∧ (utf8 req.hmacHex).length = 64, .denyMalformed),
    (req.Fresh nowUnixS maxSkewS, .denyStale),
    (req.ownerPid ∈ grantedOwnerPids, .denyOwnerNotGranted),
    (req.Signed sharedKey, .denyBadHmac)]

theorem LinkRequest.fresh_iff : req.Fresh nowUnixS maxSkewS ↔
    (if nowUnixS ≥ req.tsUnixS then nowUnixS - req.tsUnixS else req.tsUnixS - nowUnixS) ≤ maxSkewS := by
  unfold LinkRequest.Fresh
  by_cases later : nowUnixS ≥ req.tsUnixS
  · rw [if_pos later, UInt64.le_iff_toNat_le, UInt64.toNat_sub_of_le _ _ later]
    have := UInt64.le_iff_toNat_le.mp later
    omega
  · rw [if_neg later, UInt64.le_iff_toNat_le, UInt64.toNat_sub_of_le _ _ (UInt64.le_of_lt (UInt64.not_le.mp later))]
    have := UInt64.lt_iff_toNat_lt.mp (UInt64.not_le.mp later)
    omega

theorem LinkRequest.signed_iff :
    hmacHexMatches (hmacSha256Parts sharedKey req.parts) req.hmacHex = true ↔ req.Signed sharedKey := by
  rw [hmacHexMatches_iff, hmacSha256Parts_eq_streamed, streamed_toList]
  rfl

theorem LinkRequest.malformed_iff : (req.ownerPid.isEmpty || req.host.isEmpty || req.verb.isEmpty || req.nonce.isEmpty ||
    (utf8 req.hmacHex).length != 64) = true ↔ ¬ (req.Filled ∧ (utf8 req.hmacHex).length = 64) := by
  simp only [LinkRequest.Filled, Bool.or_eq_true, String.isEmpty_iff, bne_iff_ne]
  tauto

theorem LinkRequest.stale_iff :
    (if nowUnixS ≥ req.tsUnixS then nowUnixS - req.tsUnixS else req.tsUnixS - nowUnixS) > maxSkewS ↔
      ¬ req.Fresh nowUnixS maxSkewS := by
  rw [fresh_iff, UInt64.not_le]

theorem LinkRequest.ungranted_iff :
    (!grantedOwnerPids.any (· == req.ownerPid)) = true ↔ ¬ req.ownerPid ∈ grantedOwnerPids := by
  have granted_iff : grantedOwnerPids.any (· == req.ownerPid) = true ↔ req.ownerPid ∈ grantedOwnerPids := by simp
  rw [← granted_iff, Bool.not_eq_true', Bool.not_eq_true]

/-- The gate decides by its rules, and the first one violated is reported. -/
theorem verifyLink_result : Verdict (linkRules req sharedKey grantedOwnerPids nowUnixS maxSkewS)
    (verifyLink req sharedKey grantedOwnerPids nowUnixS maxSkewS).result := by
  unfold verifyLink linkRules
  by_cases formed : req.Filled ∧ (utf8 req.hmacHex).length = 64
  · rw [if_neg (req.malformed_iff.not.mpr (not_not.mpr formed))]
    refine .holds formed ?_
    by_cases fresh : req.Fresh nowUnixS maxSkewS
    · simp only [if_neg ((req.stale_iff nowUnixS maxSkewS).not.mpr (not_not.mpr fresh))]
      refine .holds fresh ?_
      by_cases granted : req.ownerPid ∈ grantedOwnerPids
      · rw [if_neg ((req.ungranted_iff grantedOwnerPids).not.mpr (not_not.mpr granted))]
        refine .holds granted ?_
        by_cases signed : req.Signed sharedKey
        · rw [if_pos ((req.signed_iff sharedKey).mpr signed)]
          exact .holds signed .accepted
        · rw [if_neg ((req.signed_iff sharedKey).not.mpr signed)]
          exact .violated signed
      · rw [if_pos ((req.ungranted_iff grantedOwnerPids).mpr granted)]
        exact .violated granted
    · simp only [if_pos ((req.stale_iff nowUnixS maxSkewS).mpr fresh)]
      exact .violated fresh
  · rw [if_pos (req.malformed_iff.mpr formed)]
    exact .violated formed

theorem LinkVerdict.result_ok_iff (verdict : LinkVerdict) : verdict.result = .ok () ↔ verdict = .allow := by
  cases verdict with
  | allow => exact iff_of_true rfl rfl
  | denyBadHmac | denyOwnerNotGranted | denyStale | denyMalformed => exact iff_of_false nofun nofun

theorem LinkRequest.Signed.length {req : LinkRequest} {sharedKey : List UInt8} (signed : req.Signed sharedKey) :
    (utf8 req.hmacHex).length = 64 := by
  rw [LinkRequest.Signed] at signed
  rw [signed, length_toHex]
  exact congrArg (2 * ·) Vector.length_toList

/-- A request is allowed exactly when it is filled, fresh, granted and signed;
any other one gets the verdict of the first check that it fails. -/
theorem verifyLink_decides :
    (verifyLink req sharedKey grantedOwnerPids nowUnixS maxSkewS = .allow ↔
      req.Filled ∧ req.Fresh nowUnixS maxSkewS ∧ req.ownerPid ∈ grantedOwnerPids ∧ req.Signed sharedKey) ∧
    Verdict (linkRules req sharedKey grantedOwnerPids nowUnixS maxSkewS)
      (verifyLink req sharedKey grantedOwnerPids nowUnixS maxSkewS).result := by
  have verdict := verifyLink_result req sharedKey grantedOwnerPids nowUnixS maxSkewS
  refine ⟨?_, verdict⟩
  rw [← LinkVerdict.result_ok_iff, verdict.ok_iff, AllHold, linkRules]
  simp only [List.forall_mem_cons]
  refine ⟨fun holds => ?_, fun holds => ?_⟩
  · obtain ⟨⟨filled, _⟩, fresh, granted, signed, _⟩ := holds
    exact ⟨filled, fresh, granted, signed⟩
  · obtain ⟨filled, fresh, granted, signed⟩ := holds
    exact ⟨⟨filled, signed.length⟩, fresh, granted, signed, by simp⟩

end Asolaria.LinkAuth
