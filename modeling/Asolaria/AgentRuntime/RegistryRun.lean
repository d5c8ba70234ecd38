import Asolaria.AgentRuntime.Registry
import Asolaria.Library.Run

namespace Asolaria.AgentRuntime
open Library Syscall

/-- One call on the registry. A `Vec` holds fewer than `2 ^ 63` entries, and a
push that does not fit into it aborts instead of returning. -/
inductive RegistryStep (registry : AgentRegistry) :
    RegistryCall × Except AgentErr (Option String) → AgentRegistry → Prop
  | perform (call) : (registry.perform call).2.entries.length < 2 ^ 63 →
      RegistryStep registry (call, (registry.perform call).1) (registry.perform call).2

abbrev RegistryHistory := List (Transition AgentRegistry (RegistryCall × Except AgentErr (Option String)))

def RegistryRun (history : RegistryHistory) (registry : AgentRegistry) : Prop :=
  Run RegistryStep AgentRegistry.new history registry

/-- What an entry keeps for good, and a retired one beyond that. -/
structure SameAgent (earlier later : AgentEntry) : Prop where
  agentPid : later.agentPid = earlier.agentPid
  role : later.role = earlier.role
  vantage : later.vantage = earlier.vantage
  tier : later.tier = earlier.tier
  agentClass : later.agentClass = earlier.agentClass
  retired : earlier.state = .retired → later.state = .retired ∧ later.lastHeartbeatNs = earlier.lastHeartbeatNs

theorem SameAgent.refl (entry : AgentEntry) : SameAgent entry entry where
  agentPid := rfl
  role := rfl
  vantage := rfl
  tier := rfl
  agentClass := rfl
  retired gone := ⟨gone, rfl⟩

theorem SameAgent.trans {first second third : AgentEntry} (early : SameAgent first second)
    (late : SameAgent second third) : SameAgent first third where
  agentPid := late.agentPid.trans early.agentPid
  role := late.role.trans early.role
  vantage := late.vantage.trans early.vantage
  tier := late.tier.trans early.tier
  agentClass := late.agentClass.trans early.agentClass
  retired gone := by
    obtain ⟨still, stamp⟩ := early.retired gone
    obtain ⟨stillLater, stampLater⟩ := late.retired still
    exact ⟨stillLater, stampLater.trans stamp⟩

/-- The counter of a class. -/
def DispatchCounters.ofClass (counters : DispatchCounters) : AgentClass → UInt64
  | .virtualPointer => counters.virtualRegistered
  | .realReceiptGated => counters.receiptGatedHelper
  | .ambiguous => counters.ambiguousHeld

/-- The class that a call asks for. -/
def RegistryCall.asks : RegistryCall → Option AgentClass
  | .spawn .. => some .virtualPointer
  | .spawnRealGated _ _ _ hasReceipt => some (classifyRequest 1 hasReceipt)
  | _ => none

/-- Everything a call on the registry can do. -/
inductive Performed (registry : AgentRegistry) (call : RegistryCall) :
    Except AgentErr (Option String) × AgentRegistry → Prop
  | refused (error) : Performed registry call (.error error, registry)
  | registered (entry : AgentEntry) : registry.count < agentRegistryMax → call.asks = some entry.agentClass →
      entry.state = .spawned → Performed registry call (.ok (some entry.agentPid), registry.registered entry)
  | updated {front rest : List AgentEntry} {entry changed : AgentEntry} : call.asks = none →
      registry.entries = front ++ entry :: rest → SameAgent entry changed →
      (changed.state = .retired ∨ changed.state = entry.state) →
      Performed registry call (.ok none, { registry with entries := front ++ changed :: rest })
  | noted {counters : DispatchCounters} : call.asks = none →
      (∀ agentClass, counters.ofClass agentClass = registry.counters.ofClass agentClass) →
      Performed registry call (.ok none, { registry with counters := counters })

variable {registry after : AgentRegistry} {call : RegistryCall} {history : RegistryHistory}

theorem AgentRegistry.register_case (role : AgentRole) (vantage : VantageId) (tier : AccessTier)
    {agentClass : AgentClass} (asked : call.asks = some agentClass) :
    Performed registry call ((registry.register role vantage tier agentClass).1.map some,
      (registry.register role vantage tier agentClass).2) := by
  rw [register]
  by_cases full : registry.count ≥ agentRegistryMax
  · rw [if_pos full]
    exact .refused _
  · rw [if_neg full]
    by_cases empty : (mintAgentPid (UInt64.ofNat registry.entries.length + 1) role vantage tier).isEmpty = true
    · simp only [if_pos empty]
      exact .refused _
    · simp only [if_neg empty]
      exact .registered ⟨_, role, .spawned, vantage, tier, agentClass, 0, 0⟩ (Nat.lt_of_not_le full) asked rfl

theorem AgentRegistry.updateAgent_case {agentPid : String} {update : AgentEntry → Except AgentErr AgentEntry}
    (other : call.asks = none)
    (keeps : ∀ entry changed, update entry = .ok changed →
      SameAgent entry changed ∧ (changed.state = .retired ∨ changed.state = entry.state)) :
    Performed registry call ((registry.updateAgent agentPid update).1.map fun _ => none,
      (registry.updateAgent agentPid update).2) := by
  unfold updateAgent
  cases found : updateFirst (fun e => e.agentPid == agentPid) update .notFound registry.entries with
  | error error => exact .refused error
  | ok entries =>
    obtain ⟨front, entry, changed, rest, cut, _, updated, rfl⟩ := updateFirst_ok found
    obtain ⟨same, state⟩ := keeps entry changed updated
    exact .updated other cut same state

theorem AgentRegistry.perform_case (registry : AgentRegistry) (call : RegistryCall) :
    Performed registry call (registry.perform call) := by
  cases call with
  | spawn role vantage tier => exact register_case role vantage tier rfl
  | spawnRealGated role vantage tier hasReceipt => exact register_case role vantage tier rfl
  | retire agentPid =>
    apply updateAgent_case rfl
    rintro entry changed ⟨⟩
    exact ⟨⟨rfl, rfl, rfl, rfl, rfl, fun _ => ⟨rfl, rfl⟩⟩, .inl rfl⟩
  | heartbeat agentPid nowNs =>
    apply updateAgent_case rfl
    intro entry changed updated
    by_cases retired : entry.state = .retired
    · rw [if_pos retired] at updated
      cases updated
    · rw [if_neg retired] at updated
      cases updated
      exact ⟨⟨rfl, rfl, rfl, rfl, rfl, fun gone => absurd gone retired⟩, .inr rfl⟩
  | noteOmnidispatchRouted => exact .noted rfl fun agentClass => by cases agentClass <;> rfl
  | noteOpencodeFreeAgentCall => exact .noted rfl fun agentClass => by cases agentClass <;> rfl
  | noteOsProcessSpawn => exact .noted rfl fun agentClass => by cases agentClass <;> rfl

section Counts

theorem count_registered {entry : AgentEntry} (fresh : entry.state = .spawned) :
    (registry.registered entry).count = registry.count + 1 := by
  simp [AgentRegistry.count, AgentRegistry.registered, fresh]

theorem count_updated {front rest : List AgentEntry} {entry changed : AgentEntry}
    (cut : registry.entries = front ++ entry :: rest) (state : changed.state = .retired ∨ changed.state = entry.state) :
    { registry with entries := front ++ changed :: rest : AgentRegistry }.count ≤ registry.count := by
  simp only [AgentRegistry.count, cut, List.countP_append, List.countP_cons]
  rcases state with gone | still
  · simp only [gone, ne_eq, not_true_eq_false, decide_false, Bool.false_eq_true, if_false]
    omega
  · exact Nat.le_of_eq (by rw [still])

/-- Every live agent stands in one of the four vantages. -/
theorem count_eq_vantages (registry : AgentRegistry) :
    registry.count = registry.countInVantage .acer + registry.countInVantage .liris +
      registry.countInVantage .falcon + registry.countInVantage .aether := by
  simp only [AgentRegistry.count, AgentRegistry.countInVantage]
  induction registry.entries with
  | nil => rfl
  | cons entry entries ih =>
    simp only [List.countP_cons, ih]
    cases entry.vantage with
    | acer => simp; omega
    | liris => simp; omega
    | falcon => simp; omega
    | aether => simp; omega

def AgentRegistry.ofClass (registry : AgentRegistry) (agentClass : AgentClass) : Nat :=
  registry.entries.countP fun e => e.agentClass = agentClass

/-- The counters of the three classes agree with the table. -/
def Counted (registry : AgentRegistry) : Prop :=
  ∀ agentClass, (registry.counters.ofClass agentClass).toNat = registry.ofClass agentClass

theorem ofClass_registered (entry : AgentEntry) (agentClass : AgentClass) :
    (registry.registered entry).counters.ofClass agentClass =
      registry.counters.ofClass agentClass + if entry.agentClass = agentClass then 1 else 0 := by
  unfold AgentRegistry.registered
  cases entry.agentClass with
  | virtualPointer => cases agentClass <;> simp [DispatchCounters.ofClass]
  | realReceiptGated => cases agentClass <;> simp [DispatchCounters.ofClass]
  | ambiguous => cases agentClass <;> simp [DispatchCounters.ofClass]

theorem Counted.registered (counted : Counted registry) {entry : AgentEntry}
    (fits : (registry.registered entry).entries.length < 2 ^ 63) : Counted (registry.registered entry) := by
  intro agentClass
  have value := counted agentClass
  have bound : registry.ofClass agentClass ≤ registry.entries.length := List.countP_le_length
  have length : (registry.registered entry).entries.length = registry.entries.length + 1 := List.length_append
  have added : (registry.registered entry).ofClass agentClass =
      registry.ofClass agentClass + if entry.agentClass = agentClass then 1 else 0 := by
    simp [AgentRegistry.ofClass, AgentRegistry.registered, List.countP_append]
  rw [ofClass_registered, added, UInt64.toNat_add, value]
  by_cases same : entry.agentClass = agentClass
  · rw [if_pos same, if_pos same]
    exact Nat.mod_eq_of_lt (by simp; omega)
  · rw [if_neg same, if_neg same]
    exact Nat.mod_eq_of_lt (by simp; omega)

end Counts

/-- What holds of the registry after every call. -/
structure Consistent (registry : AgentRegistry) : Prop where
  capped : registry.count ≤ agentRegistryMax
  counted : Counted registry

theorem Consistent.new : Consistent AgentRegistry.new where
  capped := Nat.zero_le _
  counted agentClass := by
    cases agentClass with
    | virtualPointer => rfl
    | realReceiptGated => rfl
    | ambiguous => rfl

theorem ofClass_updated {front rest : List AgentEntry} {entry changed : AgentEntry}
    (cut : registry.entries = front ++ entry :: rest) (same : SameAgent entry changed) (agentClass : AgentClass) :
    { registry with entries := front ++ changed :: rest : AgentRegistry }.ofClass agentClass =
      registry.ofClass agentClass := by
  simp only [AgentRegistry.ofClass, cut, List.countP_append, List.countP_cons, same.agentClass]

section Steps
variable {result : Except AgentErr (Option String)} (step : RegistryStep registry (call, result) after)
include step

theorem RegistryStep.performed : Performed registry call (result, after) := by
  cases step with
  | perform => exact registry.perform_case call

theorem RegistryStep.fits : after.entries.length < 2 ^ 63 := by
  cases step with
  | perform _ fits => exact fits

theorem RegistryStep.consistent (consistent : Consistent registry) : Consistent after := by
  have fits := step.fits
  cases step.performed with
  | refused => exact consistent
  | registered entry free _ fresh =>
    refine ⟨?_, consistent.counted.registered fits⟩
    rw [count_registered fresh]
    exact free
  | updated _ cut same state =>
    refine ⟨Nat.le_trans (count_updated cut state) consistent.capped, fun agentClass => ?_⟩
    rw [ofClass_updated cut same]
    exact consistent.counted agentClass
  | noted _ kept =>
    refine ⟨consistent.capped, fun agentClass => ?_⟩
    rw [kept]
    exact consistent.counted agentClass

theorem RegistryStep.grows : Grows SameAgent registry.entries after.entries := by
  cases step.performed with
  | refused | noted => exact Grows.refl SameAgent.refl _
  | registered entry => exact Grows.append SameAgent.refl _ _
  | updated _ cut same _ =>
    rw [cut]
    exact Grows.replace SameAgent.refl _ _ same

theorem RegistryStep.refused {error : AgentErr} (failed : result = .error error) : after = registry := by
  cases step.performed with
  | refused => rfl
  | registered | updated | noted => cases failed

/-- A registration appends one entry of the class that was asked for. -/
theorem RegistryStep.registered {agentClass : AgentClass} (asked : call.asks = some agentClass) {pid : Option String}
    (accepted : result = .ok pid) :
    ∃ entry, after.entries = registry.entries ++ [entry] ∧ entry.agentClass = agentClass ∧ pid = some entry.agentPid := by
  cases step.performed with
  | refused => cases accepted
  | registered entry _ given _ =>
    cases accepted
    rw [given] at asked
    exact ⟨entry, rfl, Option.some.inj asked, rfl⟩
  | updated other | noted other =>
    rw [other] at asked
    cases asked

end Steps

theorem Run.grows {first : AgentRegistry} (run : Run RegistryStep first history registry) :
    Grows SameAgent first.entries registry.entries := by
  induction run with
  | start => exact Grows.refl SameAgent.refl _
  | next _ step ih => exact ih.trans SameAgent.trans step.grows

theorem RegistryRun.consistent (run : RegistryRun history registry) : Consistent registry :=
  run.preserves (fun step consistent => step.consistent consistent) Consistent.new

/-- What the registry keeps along a run. -/
structure RegistryKept (history : RegistryHistory) (registry : AgentRegistry) : Prop where
  capped : registry.count ≤ agentRegistryMax
  vantages : registry.count = registry.countInVantage .acer + registry.countInVantage .liris +
    registry.countInVantage .falcon + registry.countInVantage .aether
  grows : ∀ transition ∈ history, Grows SameAgent transition.before.entries transition.after.entries ∧
    Grows SameAgent transition.after.entries registry.entries
  virtualRegistered : registry.counters.virtualRegistered.toNat =
    registry.entries.countP fun e => e.agentClass = .virtualPointer
  receiptGatedHelper : registry.counters.receiptGatedHelper.toNat =
    registry.entries.countP fun e => e.agentClass = .realReceiptGated
  ambiguousHeld : registry.counters.ambiguousHeld.toNat = registry.entries.countP fun e => e.agentClass = .ambiguous
  classified : ∀ plannedOsSpawns ≠ 0, classifyRequest plannedOsSpawns false = .ambiguous
  held : ∀ transition ∈ history, ∀ role vantage tier pid,
    transition.label = (.spawnRealGated role vantage tier false, .ok pid) →
      ∃ entry, transition.after.entries = transition.before.entries ++ [entry] ∧ entry.agentClass = .ambiguous ∧
        pid = some entry.agentPid
  refused : ∀ transition ∈ history, ∀ error, transition.label.2 = .error error →
    transition.after.entries = transition.before.entries ∧ transition.after.counters = transition.before.counters

/-- Along every run of the registry, and so in every state of it, the cap, the
identity of the entries, the finality of a retirement and the three counters
of the classes are kept. -/
theorem RegistryRun.kept (run : RegistryRun history registry) : RegistryKept history registry where
  capped := run.consistent.capped
  vantages := count_eq_vantages registry
  grows := by
    intro transition member
    obtain ⟨before, later, recorded⟩ := List.append_of_mem member
    exact ⟨(Run.step_of_mem run member).grows, Run.grows (Run.rest run recorded)⟩
  virtualRegistered := run.consistent.counted .virtualPointer
  receiptGatedHelper := run.consistent.counted .realReceiptGated
  ambiguousHeld := run.consistent.counted .ambiguous
  classified _ planned := by simp [classifyRequest, planned]
  held := by
    intro transition member role vantage tier pid called
    have step := Run.step_of_mem run member
    rw [called] at step
    exact step.registered rfl rfl
  refused := by
    intro transition member error failed
    rw [(Run.step_of_mem run member).refused failed]
    exact ⟨rfl, rfl⟩

/-- The first agent, registered without a receipt. -/
def heldAgent : AgentEntry :=
  ⟨"AGT-ACER-HRM-H249AB583FF45", .hermes, .spawned, .acer, .restricted, .ambiguous, 0, 0⟩

def heldRegistry : AgentRegistry := AgentRegistry.new.registered heldAgent

def retiredRegistry : AgentRegistry := { heldRegistry with entries := [{ heldAgent with state := .retired }] }

/-- A real request without a receipt, a retirement and a late heartbeat. -/
def heldHistory : RegistryHistory :=
  [⟨.new, (.spawnRealGated .hermes .acer .restricted false, .ok (some heldAgent.agentPid)), heldRegistry⟩,
    ⟨heldRegistry, (.retire heldAgent.agentPid, .ok none), retiredRegistry⟩,
    ⟨retiredRegistry, (.heartbeat heldAgent.agentPid 99999, .error .invalidStateTransition), retiredRegistry⟩]

theorem RegistryStep.of_eq {result : Except AgentErr (Option String)} (performed : registry.perform call = (result, after))
    (fits : after.entries.length < 2 ^ 63) : RegistryStep registry (call, result) after := by
  have step := @RegistryStep.perform registry call (by rw [performed]; exact fits)
  rwa [performed] at step

theorem RegistryRun.kept_held : RegistryKept heldHistory retiredRegistry := by
  apply RegistryRun.kept
  have spawned : RegistryStep .new (.spawnRealGated .hermes .acer .restricted false, .ok (some heldAgent.agentPid))
      heldRegistry := .of_eq (by decide +kernel) (by decide)
  have retired : RegistryStep heldRegistry (.retire heldAgent.agentPid, .ok none) retiredRegistry :=
    .of_eq (by decide +kernel) (by decide)
  have late : RegistryStep retiredRegistry (.heartbeat heldAgent.agentPid 99999, .error .invalidStateTransition)
      retiredRegistry := .of_eq (by decide +kernel) (by decide)
  exact .next (.next (.next .start spawned) retired) late

end Asolaria.AgentRuntime
