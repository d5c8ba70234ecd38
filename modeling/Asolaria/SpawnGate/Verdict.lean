import Asolaria.SignGate.Gate
import Asolaria.Syscall.Services
import Mathlib.Order.MinMax

namespace Asolaria.SpawnGate
open Library Syscall SignGate

def gateGeniusThresholdQ : UInt32 := 720

def gateMaxReverseRiskQ : UInt32 := 280

structure SpawnGateInput where
  slot : UInt8
  syscallNo : UInt8
  callerPid : UInt64
  tier : HookTier
  targetTier : AccessTier
  eventTags : List String
  forwardScoreQ : UInt32
  reverseRiskQ : UInt32
deriving DecidableEq, Repr

def SpawnGateInput.context (input : SpawnGateInput) : HookContext where
  slot := input.slot
  syscallNo := input.syscallNo
  callerPid := input.callerPid
  tier := input.tier
  targetTier := input.targetTier

def spawnGateVerdict (input : SpawnGateInput) : HookwallVerdict :=
  if !denyCheck input.eventTags defaultDenies then .block
  else
    match hookwallPre input.context with
    | .error _ => .block
    | .ok verdict =>
      if verdict ≠ .proceed then verdict
      else if input.forwardScoreQ ≥ gateGeniusThresholdQ ∧ input.reverseRiskQ ≤ gateMaxReverseRiskQ then .proceed
      else .hold

/-- How strict a verdict is: `proceed` is passed by `hold`, and `hold` by
`block`. -/
def strictness : HookwallVerdict → Nat
  | .proceed => 0
  | .hold => 1
  | .block => 2

theorem strictness_injective : Function.Injective strictness := by
  intro v w same
  cases v <;> cases w <;> first | rfl | cases same

instance : LinearOrder HookwallVerdict := LinearOrder.lift' strictness strictness_injective

/-- The verdict on the tags alone. -/
def tagVerdict (eventTags : List String) : HookwallVerdict := if Denied eventTags then .block else .proceed

/-- The verdict on the slot and the tier alone. -/
def tierVerdict (slot : UInt8) (tier : HookTier) : HookwallVerdict :=
  if 64 ≤ slot then .block
  else
    match tier with
    | .micro => .proceed
    | .cosign => .hold
    | .firmware => .block

/-- The verdict on the scores alone. -/
def scoreVerdict (forwardScoreQ reverseRiskQ : UInt32) : HookwallVerdict :=
  if 720 ≤ forwardScoreQ ∧ reverseRiskQ ≤ 280 then .proceed else .hold

section Order
variable {v : HookwallVerdict}

theorem proceed_le : HookwallVerdict.proceed ≤ v := Nat.zero_le (strictness v)

theorem le_block : v ≤ HookwallVerdict.block := by cases v <;> decide

theorem hold_le (stricter : v ≠ .proceed) : HookwallVerdict.hold ≤ v := by
  cases v with
  | proceed => exact absurd rfl stricter
  | hold => exact le_rfl
  | block => exact le_block

end Order

section Monotone
variable {tags tags' : List String} {forward forward' risk risk' : UInt32}

theorem Denied.mono (inside : tags ⊆ tags') (denied : Denied tags) : Denied tags' := by
  obtain ⟨tag, member, contained⟩ := denied
  exact ⟨tag, inside member, contained⟩

theorem tagVerdict_mono (inside : tags ⊆ tags') : tagVerdict tags ≤ tagVerdict tags' := by
  by_cases denied : Denied tags
  · rw [tagVerdict, tagVerdict, if_pos denied, if_pos (Denied.mono inside denied)]
  · rw [tagVerdict, if_neg denied]
    exact proceed_le

theorem scoreVerdict_le_hold : scoreVerdict forward risk ≤ .hold := by
  unfold scoreVerdict
  split
  · exact proceed_le
  · exact le_rfl

theorem scoreVerdict_mono (lower : forward' ≤ forward) (higher : risk ≤ risk') :
    scoreVerdict forward risk ≤ scoreVerdict forward' risk' := by
  by_cases cleared : 720 ≤ forward' ∧ risk' ≤ 280
  · have before : 720 ≤ forward ∧ risk ≤ 280 := ⟨UInt32.le_trans cleared.1 lower, UInt32.le_trans higher cleared.2⟩
    rw [scoreVerdict, scoreVerdict, if_pos before, if_pos cleared]
  · have held : scoreVerdict forward' risk' = .hold := if_neg cleared
    rw [held]
    exact scoreVerdict_le_hold

end Monotone

variable {input input' : SpawnGateInput}

/-- A slot outside the table is an error of `hookwall_pre`, and blocks. -/
theorem hookwallPre_context (input : SpawnGateInput) :
    hookwallPre input.context = .ok (tierVerdict input.slot input.tier) ∨
      (∃ error, hookwallPre input.context = .error error) ∧ tierVerdict input.slot input.tier = .block := by
  by_cases outside : 64 ≤ input.slot
  · have refused : input.context.slot.toNat ≥ hookwallSlotCount := UInt8.le_iff_toNat_le.mp outside
    exact .inr ⟨⟨_, if_pos refused⟩, if_pos outside⟩
  · have inside : ¬ input.context.slot.toNat ≥ hookwallSlotCount :=
      fun refused => outside (UInt8.le_iff_toNat_le.mpr refused)
    left
    unfold tierVerdict
    rw [hookwallPre, if_neg inside, if_neg outside]
    rfl

/-- The early returns of the gate are the strictest of its three verdicts. -/
theorem spawnGateVerdict_eq_max (input : SpawnGateInput) : spawnGateVerdict input =
    max (tagVerdict input.eventTags)
      (max (tierVerdict input.slot input.tier) (scoreVerdict input.forwardScoreQ input.reverseRiskQ)) := by
  by_cases denied : Denied input.eventTags
  · rw [tagVerdict, if_pos denied, max_eq_left le_block, spawnGateVerdict, denyCheck_eq_false_iff.mpr denied]
    rfl
  · have clean : denyCheck input.eventTags defaultDenies = true := by
      rwa [← denyCheck_eq_false_iff, Bool.not_eq_false] at denied
    rw [tagVerdict, if_neg denied, max_eq_right proceed_le, spawnGateVerdict, clean]
    rcases hookwallPre_context input with answered | ⟨⟨error, refused⟩, blocked⟩
    · rw [answered]
      by_cases cleared : tierVerdict input.slot input.tier = .proceed
      · rw [cleared, max_eq_right proceed_le]
        rfl
      · rw [max_eq_left (scoreVerdict_le_hold.trans (hold_le cleared))]
        exact if_pos cleared
    · rw [refused, blocked, max_eq_left le_block]
      rfl

/-- More tags, a lower forward score and a higher risk never loosen the
verdict. -/
theorem spawnGateVerdict_mono (tags : input.eventTags ⊆ input'.eventTags) (slot : input'.slot = input.slot)
    (tier : input'.tier = input.tier) (lower : input'.forwardScoreQ ≤ input.forwardScoreQ)
    (higher : input.reverseRiskQ ≤ input'.reverseRiskQ) : spawnGateVerdict input ≤ spawnGateVerdict input' := by
  rw [spawnGateVerdict_eq_max, spawnGateVerdict_eq_max, slot, tier]
  exact max_le_max (tagVerdict_mono tags) (max_le_max le_rfl (scoreVerdict_mono lower higher))

/-- The gate is the strictest of its three verdicts, so it only tightens, and
the order of the tags does not show. -/
theorem spawn_gate_strictest :
    (∀ input, spawnGateVerdict input =
      max (tagVerdict input.eventTags)
        (max (tierVerdict input.slot input.tier) (scoreVerdict input.forwardScoreQ input.reverseRiskQ))) ∧
    (∀ input input' : SpawnGateInput, input.eventTags ⊆ input'.eventTags → input'.slot = input.slot →
      input'.tier = input.tier → input'.forwardScoreQ ≤ input.forwardScoreQ →
      input.reverseRiskQ ≤ input'.reverseRiskQ → spawnGateVerdict input ≤ spawnGateVerdict input') ∧
    (∀ (input : SpawnGateInput) (tags : List String), tags.Perm input.eventTags →
      spawnGateVerdict { input with eventTags := tags } = spawnGateVerdict input) := by
  refine ⟨spawnGateVerdict_eq_max, ?_, ?_⟩
  · intro input input' tags slot tier lower higher
    exact spawnGateVerdict_mono tags slot tier lower higher
  · intro input tags reordered
    apply le_antisymm
    · exact spawnGateVerdict_mono reordered.subset rfl rfl (UInt32.le_refl _) (UInt32.le_refl _)
    · exact spawnGateVerdict_mono reordered.symm.subset rfl rfl (UInt32.le_refl _) (UInt32.le_refl _)

/-- A weaker and riskier request with a denied tag is judged no less strictly. -/
theorem spawn_gate_strictest_denied :
    spawnGateVerdict ⟨0, 1, 0xABCD, .micro, .publicTier, ["safe-tag"], 720, 280⟩ ≤
      spawnGateVerdict ⟨0, 1, 0xABCD, .micro, .publicTier, ["safe-tag", "drift-detected"], 700, 300⟩ :=
  spawn_gate_strictest.2.1 _ _ (by decide) rfl rfl (by decide) (by decide)

end Asolaria.SpawnGate
