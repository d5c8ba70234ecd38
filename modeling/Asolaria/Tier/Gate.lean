import Asolaria.Tier.Classify
import Mathlib.Logic.Relation

namespace Asolaria.Tier
open Library Syscall

inductive TierGateVerdict
  | allow
  | deny
  | escalate
  deriving DecidableEq, Repr

/-- `tier_gate::check`. -/
def check (callerTier targetTier : AccessTier) : TierGateVerdict :=
  let caller := tierRank callerTier
  let target := tierRank targetTier
  if targetTier = .sovereignty ∧ callerTier ≠ .sovereignty then .deny
  else
    match callerTier with
    | .sovereignty => .allow
    | .publicTier => if target ≤ tierRank .restricted then .allow else .deny
    | .restricted => if target ≤ tierRank .stealth then .allow else .escalate
    | .stealth | .hidden => if target ≤ caller then .allow else .escalate
    | .shadow | .secret => if target ≤ caller then .allow else .deny

def tierCanAccess (callerTier targetTier : AccessTier) : Bool := check callerTier targetTier == .allow

/-- What a caller gets to by accesses in a row, each made from the tier that
the one before it was allowed to reach. -/
def Reaches (passes : AccessTier → AccessTier → Prop) : AccessTier → AccessTier → Prop := Relation.ReflTransGen passes

/-- The highest rank that the tier of a caller leads to without an escalation. -/
def ceiling (callerTier : AccessTier) : UInt8 := max (tierRank callerTier) (tierRank .stealth)

variable {caller middle target : AccessTier}

theorem ceiling_step (allowed : check caller target = .allow) : ceiling target ≤ ceiling caller := by
  cases caller <;> cases target <;> revert allowed <;> decide

/-- No chain of accesses goes higher than its first caller may get, or than
Stealth. -/
theorem ceiling_chain (reaches : Reaches (check · · = .allow) caller target) : ceiling target ≤ ceiling caller := by
  induction reaches with
  | refl => exact UInt8.le_refl _
  | tail _ last ih => exact UInt8.le_trans (ceiling_step last) ih

theorem check_self : check caller caller = .allow := by
  cases caller <;> decide

/-- What the ceiling admits is reached in two accesses. -/
theorem reaches_below (below : tierRank target ≤ ceiling caller) :
    ∃ middle, check caller middle = .allow ∧ check middle target = .allow := by
  cases caller with
  | publicTier => exact ⟨.restricted, by decide, by revert below; cases target <;> decide⟩
  | restricted => exact ⟨_, check_self, by revert below; cases target <;> decide⟩
  | stealth => exact ⟨_, check_self, by revert below; cases target <;> decide⟩
  | hidden => exact ⟨_, check_self, by revert below; cases target <;> decide⟩
  | shadow => exact ⟨_, check_self, by revert below; cases target <;> decide⟩
  | secret => exact ⟨_, check_self, by revert below; cases target <;> decide⟩
  | sovereignty => exact ⟨_, check_self, by revert below; cases target <;> decide⟩

theorem sovereignty_step (passed : check caller .sovereignty ≠ .deny) : caller = .sovereignty := by
  cases caller <;> first | rfl | exact absurd rfl passed

/-- The physical tier is only reached from itself, escalations included. -/
theorem sovereignty_chain (reaches : Reaches (check · · ≠ .deny) caller target) (last : target = .sovereignty) :
    caller = .sovereignty := by
  induction reaches with
  | refl => exact last
  | tail _ step ih =>
    subst last
    exact ih (sovereignty_step step)

/-- Allowed accesses in a row lead to the tiers up to that of the first caller,
and to Stealth at least; with escalations they lead no caller of another tier
to the physical one. -/
theorem tier_gate_chains (caller target : AccessTier) :
    (Reaches (check · · = .allow) caller target ↔ tierRank target ≤ ceiling caller) ∧
      (Reaches (check · · ≠ .deny) caller .sovereignty ↔ caller = .sovereignty) := by
  refine ⟨⟨fun reaches => ?_, fun below => ?_⟩, fun reaches => sovereignty_chain reaches rfl, ?_⟩
  · have above : tierRank target ≤ ceiling target := by
      cases target <;> decide
    exact UInt8.le_trans above (ceiling_chain reaches)
  · obtain ⟨middle, first, second⟩ := reaches_below below
    exact .tail (.single first) second
  · rintro rfl
    exact .refl

end Asolaria.Tier
