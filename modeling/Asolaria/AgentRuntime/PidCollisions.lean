import Asolaria.AgentRuntime.MintedHash
import Asolaria.AgentRuntime.RegistryRun
import Mathlib.Data.List.ProdSigma
import Mathlib.Data.List.Nodup

namespace Asolaria.AgentRuntime
open Library Syscall

section PidText

theorem toNat_hex12_lt (handle : UInt64) (role : AgentRole) (vantage : VantageId) (tier : AccessTier) :
    (hex12 handle role vantage tier).toNat < 16 ^ 12 := by
  rw [hex12, UInt64.toNat_and]
  exact Nat.and_lt_two_pow _ (n := 48) (by decide)

theorem upperDigit_inj {a b : Nat} (left : a < 16) (right : b < 16)
    (same : (Nat.digitChar a).toUpper = (Nat.digitChar b).toUpper) : a = b := by
  have checked : ∀ a < 16, ∀ b < 16, (Nat.digitChar a).toUpper = (Nat.digitChar b).toUpper → a = b := by decide
  exact checked a left b right same

theorem length_upperHex12 (n : UInt64) : (upperHex12 n).toList.length = 12 := by
  simp [upperHex12]

theorem upperHex12_inj {n m : UInt64} (left : n.toNat < 16 ^ 12) (right : m.toNat < 16 ^ 12)
    (same : upperHex12 n = upperHex12 m) : n = m := by
  rw [upperHex12, upperHex12, String.ofList_inj] at same
  refine UInt64.toNat_inj.mp (eq_of_digits left right fun i bound => ?_)
  have digit := List.map_inj_left.mp same (11 - i) (List.mem_range.mpr (by omega))
  rw [show 11 - (11 - i) = i by omega] at digit
  exact upperDigit_inj (Nat.mod_lt _ (by decide)) (Nat.mod_lt _ (by decide)) digit

/-- The part of a PID before the hash. -/
def pidTags (role : AgentRole) (vantage : VantageId) : String :=
  "AGT-" ++ vantageTag vantage ++ "-" ++ roleTag role ++ "-H"

theorem mintAgentPid_eq (handle : UInt64) (role : AgentRole) (vantage : VantageId) (tier : AccessTier) :
    mintAgentPid handle role vantage tier = pidTags role vantage ++ upperHex12 (hex12 handle role vantage tier) := rfl

/-- Every role with every vantage. -/
def tagPairs : List (AgentRole × VantageId) :=
  [.hermes, .spaceDeckDriver, .spaceAgent, .pi, .omnispindle, .omniflywheel, .bigPickle, .subAgent].product
    [.acer, .liris, .falcon, .aether]

theorem mem_tagPairs (role : AgentRole) (vantage : VantageId) : (role, vantage) ∈ tagPairs := by
  refine List.mem_product.mpr ⟨?_, ?_⟩
  · cases role <;> decide
  · cases vantage <;> decide

theorem pidTags_inj {role role' : AgentRole} {vantage vantage' : VantageId}
    (same : pidTags role vantage = pidTags role' vantage') : role = role' ∧ vantage = vantage' := by
  have distinct : (tagPairs.map fun pair => pidTags pair.1 pair.2).Nodup := by decide +kernel
  have pairs := List.inj_on_of_nodup_map distinct (mem_tagPairs role vantage) (mem_tagPairs role' vantage') same
  exact Prod.mk.inj pairs

/-- The text of a PID tells its role, its vantage and the 48 bits of the hash,
and nothing else. -/
theorem mintAgentPid_eq_iff {handle handle' : UInt64} {role role' : AgentRole} {vantage vantage' : VantageId}
    {tier tier' : AccessTier} :
    mintAgentPid handle role vantage tier = mintAgentPid handle' role' vantage' tier' ↔
      role = role' ∧ vantage = vantage' ∧ hex12 handle role vantage tier = hex12 handle' role' vantage' tier' := by
  rw [mintAgentPid_eq, mintAgentPid_eq]
  refine ⟨fun same => ?_, fun same => ?_⟩
  · have chars := congrArg String.toList same
    rw [String.toList_append, String.toList_append] at chars
    obtain ⟨tags, digits⟩ := List.append_inj' chars (by rw [length_upperHex12, length_upperHex12])
    obtain ⟨roles, vantages⟩ := pidTags_inj (String.toList_inj.mp tags)
    refine ⟨roles, vantages, upperHex12_inj ?_ ?_ (String.toList_inj.mp digits)⟩
    · exact toNat_hex12_lt handle role vantage tier
    · exact toNat_hex12_lt handle' role' vantage' tier'
  · obtain ⟨roles, vantages, hashes⟩ := same
    rw [hashes, roles, vantages]

end PidText

/-- What a call asks to register. -/
def RegistryCall.wants : RegistryCall → Option (AgentRole × VantageId × AccessTier)
  | .spawn role vantage tier => some (role, vantage, tier)
  | .spawnRealGated role vantage tier _ => some (role, vantage, tier)
  | _ => none

/-- The entry that a registration appends. -/
def AgentRegistry.freshAgent (registry : AgentRegistry) (role : AgentRole) (vantage : VantageId) (tier : AccessTier)
    (agentClass : AgentClass) : AgentEntry :=
  ⟨mintAgentPid (UInt64.ofNat registry.entries.length + 1) role vantage tier, role, .spawned, vantage, tier,
    agentClass, 0, 0⟩

/-- The PID that a step returned to its caller. -/
def returnedPid? (step : Transition AgentRegistry (RegistryCall × Except AgentErr (Option String))) : Option String :=
  match step.label.2 with
  | .ok returned => returned
  | .error _ => none

def returnedPids (history : RegistryHistory) : List String := history.filterMap returnedPid?

/-- No entry with the role and the vantage that the call asks for has the
48 bits of the hash that the call would get. A call that registers nothing
asks for none. -/
def HashFree (registry : AgentRegistry) (call : RegistryCall) : Prop :=
  ∀ role vantage tier, call.wants = some (role, vantage, tier) → registry.count < agentRegistryMax →
    ∀ i entry, registry.entries[i]? = some entry → entry.role = role → entry.vantage = vantage →
      hex12 (UInt64.ofNat i + 1) role vantage entry.tier ≠
        hex12 (UInt64.ofNat registry.entries.length + 1) role vantage tier

variable {registry after : AgentRegistry} {call : RegistryCall} {history : RegistryHistory}

/-- What a call does about PIDs. -/
inductive Minting (registry : AgentRegistry) (call : RegistryCall) :
    Except AgentErr (Option String) → AgentRegistry → Prop
  | minted {role vantage tier} (agentClass) : call.wants = some (role, vantage, tier) →
      registry.count < agentRegistryMax →
      Minting registry call (.ok (some (registry.freshAgent role vantage tier agentClass).agentPid))
        (registry.registered (registry.freshAgent role vantage tier agentClass))
  | other {result after} : (call.wants = none ∨ agentRegistryMax ≤ registry.count) →
      (∀ agentPid, result ≠ .ok (some agentPid)) → after.entries.length = registry.entries.length →
      Minting registry call result after

theorem mintAgentPid_isEmpty (handle : UInt64) (role : AgentRole) (vantage : VantageId) (tier : AccessTier) :
    (mintAgentPid handle role vantage tier).isEmpty = false := by
  rw [mintAgentPid_eq, ← Bool.not_eq_true, String.isEmpty_iff]
  intro empty
  have length := congrArg (fun text => text.toList.length) empty
  rw [String.toList_append, List.length_append, length_upperHex12] at length
  simp at length

theorem AgentRegistry.register_eq (role : AgentRole) (vantage : VantageId) (tier : AccessTier)
    (agentClass : AgentClass) :
    registry.register role vantage tier agentClass =
      if registry.count ≥ agentRegistryMax then (.error .registryFull, registry)
      else (.ok (registry.freshAgent role vantage tier agentClass).agentPid,
        registry.registered (registry.freshAgent role vantage tier agentClass)) := by
  unfold register
  simp only [mintAgentPid_isEmpty, Bool.false_eq_true, if_false]
  rfl

theorem AgentRegistry.register_minting {role : AgentRole} {vantage : VantageId} {tier : AccessTier}
    (asked : call.wants = some (role, vantage, tier)) (agentClass : AgentClass) :
    Minting registry call ((registry.register role vantage tier agentClass).1.map some)
      (registry.register role vantage tier agentClass).2 := by
  rw [register_eq]
  by_cases full : registry.count ≥ agentRegistryMax
  · rw [if_pos full]
    exact .other (.inr full) (fun agentPid returned => by cases returned) rfl
  · rw [if_neg full]
    exact .minted agentClass asked (Nat.lt_of_not_le full)

theorem length_updated {front rest : List AgentEntry} {entry changed : AgentEntry}
    (cut : registry.entries = front ++ entry :: rest) :
    (front ++ changed :: rest).length = registry.entries.length := by
  rw [cut, List.length_append, List.length_append, List.length_cons, List.length_cons]

theorem RegistryStep.minting {result : Except AgentErr (Option String)}
    (step : RegistryStep registry (call, result) after) : Minting registry call result after := by
  have performed := step.performed
  have quiet (idle : call.wants = none) (unasked : call.asks = none) : Minting registry call result after := by
    cases performed with
    | refused => exact .other (.inl idle) (fun agentPid returned => by cases returned) rfl
    | registered _ _ asked =>
      rw [unasked] at asked
      cases asked
    | updated _ cut => exact .other (.inl idle) (fun agentPid returned => by cases returned) (length_updated cut)
    | noted => exact .other (.inl idle) (fun agentPid returned => by cases returned) rfl
  cases step with
  | perform call =>
    cases call with
    | spawn role vantage tier => exact AgentRegistry.register_minting rfl _
    | spawnRealGated role vantage tier hasReceipt => exact AgentRegistry.register_minting rfl _
    | retire | heartbeat | noteOmnidispatchRouted | noteOpencodeFreeAgentCall | noteOsProcessSpawn => exact quiet rfl rfl


/-- The table in terms of the PIDs: each is the one minted at its place, and
they are those that were returned, in order. -/
structure PidLedger (history : RegistryHistory) (registry : AgentRegistry) : Prop where
  minted : ∀ i entry, registry.entries[i]? = some entry →
    entry.agentPid = mintAgentPid (UInt64.ofNat i + 1) entry.role entry.vantage entry.tier
  returned : registry.entries.map (·.agentPid) = returnedPids history

theorem returnedPids_concat (step : Transition AgentRegistry (RegistryCall × Except AgentErr (Option String))) :
    returnedPids (history ++ [step]) = returnedPids history ++ (returnedPid? step).toList := by
  rw [returnedPids, List.filterMap_append, filterMap_single]
  rfl

section Steps
variable {result : Except AgentErr (Option String)}

theorem returnedPid?_none (silent : ∀ agentPid, result ≠ .ok (some agentPid)) :
    returnedPid? ⟨registry, (call, result), after⟩ = none := by
  unfold returnedPid?
  cases result with
  | error reason => rfl
  | ok returned =>
    cases returned with
    | none => rfl
    | some agentPid => exact absurd rfl (silent agentPid)

theorem RegistryStep.ledger (step : RegistryStep registry (call, result) after)
    (ledger : PidLedger history registry) :
    PidLedger (history ++ [⟨registry, (call, result), after⟩]) after := by
  have grows := step.grows
  cases step.minting with
  | minted agentClass =>
    refine ⟨fun i entry found => ?_, ?_⟩
    · rw [AgentRegistry.registered] at found
      by_cases old : i < registry.entries.length
      · rw [List.getElem?_append_left old] at found
        exact ledger.minted i entry found
      · have last : i = registry.entries.length := by
          have bound := (List.getElem?_eq_some_iff.mp found).1
          rw [List.length_append, List.length_singleton] at bound
          omega
        subst last
        rw [List.getElem?_concat_length] at found
        obtain rfl := Option.some.inj found
        rfl
    · rw [returnedPids_concat, AgentRegistry.registered, List.map_append, ledger.returned]
      rfl
  | other _ silent length =>
    refine ⟨fun i entry found => ?_, ?_⟩
    · obtain ⟨earlier, place, same⟩ := grows.source length found
      rw [same.agentPid, same.role, same.vantage, same.tier]
      exact ledger.minted i earlier place
    · rw [returnedPids_concat, returnedPid?_none silent, Option.toList_none, List.append_nil, ← ledger.returned]
      exact grows.map_eq SameAgent.agentPid length

end Steps

theorem RegistryRun.ledger (run : RegistryRun history registry) : PidLedger history registry := by
  induction run with
  | start =>
    refine ⟨fun i entry found => ?_, rfl⟩
    cases found
  | next _ step ih => exact step.ledger ih

/-- A fresh PID is one of the table exactly when its hash is taken. -/
theorem PidLedger.fresh_mem_iff (ledger : PidLedger history registry) {role : AgentRole} {vantage : VantageId}
    {tier : AccessTier} {agentClass : AgentClass} :
    (registry.freshAgent role vantage tier agentClass).agentPid ∈ returnedPids history ↔
      ∃ i entry, registry.entries[i]? = some entry ∧ entry.role = role ∧ entry.vantage = vantage ∧
        hex12 (UInt64.ofNat i + 1) role vantage entry.tier =
          hex12 (UInt64.ofNat registry.entries.length + 1) role vantage tier := by
  rw [← ledger.returned, List.mem_map]
  refine ⟨fun present => ?_, fun collides => ?_⟩
  · obtain ⟨entry, member, same⟩ := present
    obtain ⟨i, found⟩ := List.mem_iff_getElem?.mp member
    rw [ledger.minted i entry found] at same
    obtain ⟨sameRole, sameVantage, taken⟩ := mintAgentPid_eq_iff.mp same
    rw [sameRole, sameVantage] at taken
    exact ⟨i, entry, found, sameRole, sameVantage, taken⟩
  · obtain ⟨i, entry, found, sameRole, sameVantage, taken⟩ := collides
    refine ⟨entry, List.mem_of_getElem? found, ?_⟩
    rw [ledger.minted i entry found]
    refine mintAgentPid_eq_iff.mpr ⟨sameRole, sameVantage, ?_⟩
    rw [sameRole, sameVantage]
    exact taken

theorem RegistryStep.distinct_iff {result : Except AgentErr (Option String)}
    (step : RegistryStep registry (call, result) after) (ledger : PidLedger history registry) :
    (returnedPids (history ++ [⟨registry, (call, result), after⟩])).Nodup ↔
      (returnedPids history).Nodup ∧ HashFree registry call := by
  rw [returnedPids_concat]
  cases step.minting with
  | minted agentClass asked free =>
    change (_ ++ [AgentEntry.agentPid _]).Nodup ↔ _
    rw [← List.concat_eq_append, List.nodup_concat, and_comm, ledger.fresh_mem_iff]
    refine and_congr_right fun _ => ?_
    refine ⟨fun absent role vantage tier wanted _ i entry found sameRole sameVantage taken => ?_,
      fun unused => ?_⟩
    · rw [asked] at wanted
      cases wanted
      exact absent ⟨i, entry, found, sameRole, sameVantage, taken⟩
    · intro collides
      obtain ⟨i, entry, found, sameRole, sameVantage, taken⟩ := collides
      exact unused _ _ _ asked free i entry found sameRole sameVantage taken
  | other idle silent =>
    rw [returnedPid?_none silent, Option.toList_none, List.append_nil]
    refine (and_iff_left fun role vantage tier wanted free => ?_).symm
    rcases idle with unasked | full
    · rw [unasked] at wanted
      cases wanted
    · exact absurd free (Nat.not_lt_of_le full)

theorem RegistryRun.distinct_iff (run : RegistryRun history registry) :
    (returnedPids history).Nodup ↔ ∀ step ∈ history, HashFree step.before step.label.1 := by
  induction run with
  | start => exact ⟨fun _ step member => absurd member List.not_mem_nil, fun _ => List.nodup_nil⟩
  | next run step ih =>
    rw [step.distinct_iff (RegistryRun.ledger run), ih, List.forall_mem_append, List.forall_mem_singleton]

/-- A retirement and a heartbeat with the PID read and write the entry at the
place and no other. -/
structure ActsOn (registry : AgentRegistry) (agentPid : String) (place : Nat) (entry : AgentEntry) : Prop where
  held : registry.entries[place]? = some entry
  retire : registry.retire agentPid =
    (.ok (), { registry with entries := registry.entries.set place { entry with state := .retired } })
  heartbeat : ∀ nowNs, registry.heartbeat agentPid nowNs =
    if entry.state = .retired then (.error .invalidStateTransition, registry)
    else (.ok (), { registry with entries := registry.entries.set place { entry with lastHeartbeatNs := nowNs } })

/-- The loop stops at the first entry with the PID. -/
theorem AgentRegistry.updateAgent_of_distinct (distinct : (registry.entries.map (·.agentPid)).Nodup) {place : Nat}
    {entry : AgentEntry} (held : registry.entries[place]? = some entry)
    (update : AgentEntry → Except AgentErr AgentEntry) :
    registry.updateAgent entry.agentPid update =
      match update entry with
      | .error error => (.error error, registry)
      | .ok changed => (.ok (), { registry with entries := registry.entries.set place changed }) := by
  have found : updateFirst (fun e => e.agentPid == entry.agentPid) update .notFound registry.entries =
      (update entry).map (registry.entries.set place ·) := by
    refine updateFirst_of_first held (beq_self_eq_true _) fun j below other earlier => ?_
    have bound := (List.getElem?_eq_some_iff.mp held).1
    have differ := List.nodup_iff_getElem?_ne_getElem?.mp distinct j place below (by rwa [List.length_map])
    rw [List.getElem?_map, List.getElem?_map, earlier, held] at differ
    exact beq_false_of_ne fun same => differ (congrArg some same)
  rw [updateAgent, found]
  cases update entry with
  | error error => rfl
  | ok changed => rfl

theorem ActsOn.of_distinct (distinct : (registry.entries.map (·.agentPid)).Nodup) {place : Nat} {entry : AgentEntry}
    (held : registry.entries[place]? = some entry) : ActsOn registry entry.agentPid place entry := by
  refine ⟨held, AgentRegistry.updateAgent_of_distinct distinct held _, fun nowNs => ?_⟩
  rw [AgentRegistry.heartbeat, AgentRegistry.updateAgent_of_distinct distinct held]
  by_cases gone : entry.state = .retired
  · rw [if_pos gone, if_pos gone]
  · rw [if_neg gone, if_neg gone]

/-- The PIDs of a run differ from one registration to the next, and each acts
on the entry that its registration created, as that entry stands now. -/
structure PidsUnique (history : RegistryHistory) (registry : AgentRegistry) : Prop where
  distinct : (returnedPids history).Nodup
  acts : ∀ step ∈ history, ∀ agentPid, returnedPid? step = some agentPid →
    ∃ created entry, step.after.entries = step.before.entries ++ [created] ∧ created.agentPid = agentPid ∧
      SameAgent created entry ∧ ActsOn registry agentPid step.before.entries.length entry

theorem RegistryRun.unique_of_distinct (run : RegistryRun history registry) (distinct : (returnedPids history).Nodup) :
    PidsUnique history registry := by
  refine ⟨distinct, fun transition member agentPid returned => ?_⟩
  obtain ⟨before, label, after⟩ := transition
  obtain ⟨call, result⟩ := label
  obtain ⟨earlier, later, recorded⟩ := List.append_of_mem member
  have grows := Run.grows (Run.rest run recorded)
  have step : RegistryStep before (call, result) after := Run.step_of_mem run member
  cases step.minting with
  | other _ silent =>
    rw [returnedPid?_none silent] at returned
    cases returned
  | @minted role vantage tier agentClass =>
    obtain rfl := Option.some.inj returned
    obtain ⟨entry, held, same⟩ := grows before.entries.length (before.freshAgent role vantage tier agentClass)
      List.getElem?_concat_length
    refine ⟨_, entry, rfl, rfl, same, ?_⟩
    rw [← same.agentPid]
    refine ActsOn.of_distinct ?_ held
    rw [run.ledger.returned]
    exact distinct

/-- In a run the PIDs name the entries they were returned for exactly when no
registration met an entry of its role and its vantage with the 48 bits of its
own hash. -/
theorem RegistryRun.pidsUnique_iff (run : RegistryRun history registry) :
    PidsUnique history registry ↔ ∀ step ∈ history, HashFree step.before step.label.1 := by
  rw [← run.distinct_iff]
  exact ⟨PidsUnique.distinct, run.unique_of_distinct⟩

/-- The call registers nothing, or the handle that it would get has 32 bits, or
it differs from the handles of its role and its vantage in the lower half only,
and all of them ask for its tier. -/
def ToldApart (registry : AgentRegistry) (call : RegistryCall) : Prop :=
  ∀ role vantage tier, call.wants = some (role, vantage, tier) → registry.count < agentRegistryMax →
    registry.entries.length + 1 < 2 ^ 32 ∨
      ∀ i entry, registry.entries[i]? = some entry → entry.role = role → entry.vantage = vantage →
        entry.tier = tier ∧ (i + 1) / 2 ^ 32 = (registry.entries.length + 1) / 2 ^ 32

theorem ToldApart.hashFree (told : ToldApart registry call) (fits : registry.entries.length + 1 < 2 ^ 64) :
    HashFree registry call := by
  intro role vantage tier wanted free i entry found sameRole sameVantage taken
  have earlier : i < registry.entries.length := (List.getElem?_eq_some_iff.mp found).1
  have handle {n : Nat} (small : n + 1 < 2 ^ 64) : (UInt64.ofNat n + 1).toNat = n + 1 := by
    rw [UInt64.toNat_add, UInt64.toNat_ofNat']
    change (n % 2 ^ 64 + 1) % 2 ^ 64 = n + 1
    omega
  have old := handle (n := i) (by omega)
  have new := handle fits
  obtain ⟨sameTier, half⟩ : entry.tier = tier ∧
      (UInt64.ofNat i + 1).toNat / 2 ^ 32 = (UInt64.ofNat registry.entries.length + 1).toNat / 2 ^ 32 := by
    rw [old, new]
    rcases told role vantage tier wanted free with few | told
    · exact ⟨tier_eq_of_hex12_eq (by omega) (by omega) taken, by omega⟩
    · exact told i entry found sameRole sameVantage
  rw [sameTier] at taken
  have same := congrArg UInt64.toNat (hex12_inj half taken)
  omega

/-- In every run whose registrations can be told apart the PIDs name the
entries they were returned for. -/
theorem RegistryRun.pidsUnique_of_toldApart (run : RegistryRun history registry)
    (told : ∀ step ∈ history, ToldApart step.before step.label.1) : PidsUnique history registry := by
  refine run.pidsUnique_iff.mpr fun transition member => (told transition member).hashFree ?_
  have step : RegistryStep transition.before transition.label transition.after := Run.step_of_mem run member
  have fits := step.fits
  have kept := step.grows.length_le
  omega

section Calls

/-- The registry after a list of calls. -/
def AgentRegistry.called (registry : AgentRegistry) (calls : List RegistryCall) : AgentRegistry :=
  calls.foldl (fun current call => (current.perform call).2) registry

/-- The history of a list of calls. -/
def AgentRegistry.record (registry : AgentRegistry) : List RegistryCall → RegistryHistory
  | [] => []
  | call :: calls =>
    ⟨registry, (call, (registry.perform call).1), (registry.perform call).2⟩ :: (registry.perform call).2.record calls

theorem AgentRegistry.called_append (registry : AgentRegistry) (calls more : List RegistryCall) :
    registry.called (calls ++ more) = (registry.called calls).called more := List.foldl_append

theorem AgentRegistry.record_append (registry : AgentRegistry) (calls more : List RegistryCall) :
    registry.record (calls ++ more) = registry.record calls ++ (registry.called calls).record more := by
  induction calls generalizing registry with
  | nil => rfl
  | cons call calls ih => exact congrArg (List.cons _) (ih _)

theorem AgentRegistry.length_perform_le (registry : AgentRegistry) (call : RegistryCall) :
    (registry.perform call).2.entries.length ≤ registry.entries.length + 1 := by
  have performed := registry.perform_case call
  generalize registry.perform call = outcome at performed ⊢
  cases performed with
  | refused | noted => exact Nat.le_succ _
  | registered entry => exact Nat.le_of_eq List.length_append
  | updated _ cut => exact Nat.le_succ_of_le (Nat.le_of_eq (length_updated cut))

theorem AgentRegistry.record_run {calls : List RegistryCall} (fits : registry.entries.length + calls.length < 2 ^ 63) :
    Run RegistryStep registry (registry.record calls) (registry.called calls) := by
  induction calls generalizing registry with
  | nil => exact .start
  | cons call calls ih =>
    have grown := registry.length_perform_le call
    rw [List.length_cons] at fits
    have step : RegistryStep registry (call, (registry.perform call).1) (registry.perform call).2 :=
      .perform call (by omega)
    exact Run.append (.next .start step) (ih (by omega))

end Calls

/-- Agents of one role and one vantage, two of them of one tier, and the first
retired. -/
def twinCalls : List RegistryCall :=
  [.spawn .hermes .acer .restricted, .spawn .hermes .acer .restricted, .spawn .hermes .acer .sovereignty,
    .retire "AGT-ACER-HRM-H249AB583FF45"]

theorem RegistryRun.pidsUnique_twins :
    (∀ step ∈ AgentRegistry.new.record twinCalls, ToldApart step.before step.label.1) ∧
      PidsUnique (AgentRegistry.new.record twinCalls) (AgentRegistry.new.called twinCalls) := by
  have run : RegistryRun (AgentRegistry.new.record twinCalls) (AgentRegistry.new.called twinCalls) :=
    AgentRegistry.record_run (by decide)
  have few : (AgentRegistry.new.record twinCalls).all (fun step => step.before.entries.length < 4) = true := by
    decide +kernel
  have told : ∀ step ∈ AgentRegistry.new.record twinCalls, ToldApart step.before step.label.1 := by
    intro step member role vantage tier _ _
    have short := of_decide_eq_true (List.all_eq_true.mp few step member)
    exact .inl (by omega)
  exact ⟨told, run.pidsUnique_of_toldApart told⟩

section Cycles

/-- The tier of the agent at a place of the table. -/
def cycleTier (place : Nat) : AccessTier := if place = 9908390144 then .restricted else .sovereignty

def cyclePid (place : Nat) : String := mintAgentPid (UInt64.ofNat place + 1) .omnispindle .liris (cycleTier place)

/-- Agents that are registered and retired one after the other. -/
def cycleCalls : Nat → List RegistryCall
  | 0 => []
  | n + 1 => cycleCalls n ++ [.spawn .omnispindle .liris (cycleTier n), .retire (cyclePid n)]

def cycledAgent (place : Nat) : AgentEntry :=
  ⟨cyclePid place, .omnispindle, .retired, .liris, cycleTier place, .virtualPointer, 0, 0⟩

theorem length_cycleCalls (n : Nat) : (cycleCalls n).length = 2 * n := by
  induction n with
  | zero => rfl
  | succ n ih =>
    rw [cycleCalls, List.length_append, ih]
    rfl

theorem cycleCalls_run {n : Nat} (bound : n < 2 ^ 62) :
    RegistryRun (AgentRegistry.new.record (cycleCalls n)) (AgentRegistry.new.called (cycleCalls n)) := by
  apply AgentRegistry.record_run
  rw [length_cycleCalls]
  change 0 + 2 * n < 2 ^ 63
  omega

theorem distinct_of_append {calls more : List RegistryCall}
    (distinct : (returnedPids (registry.record (calls ++ more))).Nodup) :
    (returnedPids (registry.record calls)).Nodup := by
  rw [AgentRegistry.record_append, returnedPids, List.filterMap_append] at distinct
  exact distinct.of_append_left

theorem count_cycled {n : Nat} (retired : registry.entries = (List.range n).map cycledAgent) : registry.count = 0 := by
  rw [AgentRegistry.count, retired, List.countP_eq_zero]
  intro entry member
  obtain ⟨place, _, rfl⟩ := List.mem_map.mp member
  exact Bool.false_ne_true

/-- One more agent is registered behind the retired ones and retired itself. -/
theorem cycle_entries {n : Nat} (retired : registry.entries = (List.range n).map cycledAgent)
    (distinct : ((registry.called [.spawn .omnispindle .liris (cycleTier n)]).entries.map (·.agentPid)).Nodup) :
    (registry.called [.spawn .omnispindle .liris (cycleTier n), .retire (cyclePid n)]).entries =
      (List.range (n + 1)).map cycledAgent := by
  have length : registry.entries.length = n := by rw [retired, List.length_map, List.length_range]
  have fresh : registry.freshAgent .omnispindle .liris (cycleTier n) .virtualPointer =
      { cycledAgent n with state := .spawned } := by
    rw [AgentRegistry.freshAgent, length]
    rfl
  have spawned : registry.called [.spawn .omnispindle .liris (cycleTier n)] =
      registry.registered { cycledAgent n with state := .spawned } := by
    have free : ¬ registry.count ≥ agentRegistryMax := by
      rw [count_cycled retired]
      decide
    change (registry.register .omnispindle .liris (cycleTier n) .virtualPointer).2 = _
    rw [AgentRegistry.register_eq, if_neg free, fresh]
  have held : (registry.registered { cycledAgent n with state := .spawned }).entries[n]? =
      some { cycledAgent n with state := .spawned } := by
    rw [AgentRegistry.registered, ← length]
    exact List.getElem?_concat_length
  rw [spawned] at distinct
  have acts := (ActsOn.of_distinct distinct held).retire
  change ((registry.called [.spawn .omnispindle .liris (cycleTier n)]).retire (cyclePid n)).2.entries = _
  rw [spawned]
  refine (congrArg (fun outcome => outcome.2.entries) acts).trans ?_
  change (registry.entries ++ [_]).set n (cycledAgent n) = _
  rw [← length, List.set_append_right _ _ (Nat.le_refl _), Nat.sub_self, length, retired, List.range_succ,
    List.map_append]
  rfl

/-- As long as the PIDs differ every agent is retired, so that the table never
fills up. -/
theorem entries_cycleCalls {n : Nat} (bound : n < 2 ^ 62)
    (distinct : (returnedPids (AgentRegistry.new.record (cycleCalls n))).Nodup) :
    (AgentRegistry.new.called (cycleCalls n)).entries = (List.range n).map cycledAgent := by
  induction n with
  | zero => rfl
  | succ n ih =>
    rw [cycleCalls, List.append_cons] at distinct
    have spawnedDistinct := distinct_of_append distinct
    have retired := ih (by omega) (distinct_of_append spawnedDistinct)
    have run : RegistryRun (AgentRegistry.new.record (cycleCalls n ++ [.spawn .omnispindle .liris (cycleTier n)]))
        (AgentRegistry.new.called (cycleCalls n ++ [.spawn .omnispindle .liris (cycleTier n)])) := by
      apply AgentRegistry.record_run
      rw [List.length_append, length_cycleCalls]
      change 0 + (2 * n + 1) < 2 ^ 63
      omega
    rw [← run.ledger.returned, AgentRegistry.called_append] at spawnedDistinct
    rw [cycleCalls, AgentRegistry.called_append]
    exact cycle_entries retired spawnedDistinct

/-- The number of registrations up to the first one whose hash is known to be
taken. -/
def collidingCycles : Nat := 42949706110

theorem cyclePid_collision : cyclePid 9908390144 = cyclePid 42949706109 := by decide +kernel

/-- A run whose PIDs do not name the entries: the last registration would get
the PID of the one with handle 9908390145. -/
theorem colliding_pids :
    RegistryRun (AgentRegistry.new.record (cycleCalls collidingCycles))
        (AgentRegistry.new.called (cycleCalls collidingCycles)) ∧
      ¬ PidsUnique (AgentRegistry.new.record (cycleCalls collidingCycles))
        (AgentRegistry.new.called (cycleCalls collidingCycles)) := by
  have bound : collidingCycles < 2 ^ 62 := by decide
  have run := cycleCalls_run bound
  refine ⟨run, fun unique => ?_⟩
  have distinct := unique.distinct
  have entries := entries_cycleCalls bound distinct
  rw [← run.ledger.returned, entries, List.map_map] at distinct
  have early : 9908390144 ∈ List.range collidingCycles := List.mem_range.mpr (by decide)
  have late : 42949706109 ∈ List.range collidingCycles := List.mem_range.mpr (by decide)
  have same := List.inj_on_of_nodup_map distinct early late cyclePid_collision
  exact absurd same (by decide)

end Cycles

end Asolaria.AgentRuntime
