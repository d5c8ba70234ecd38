import Asolaria.Library.Tickets
import Asolaria.Syscall.Services

namespace Asolaria.Tier
open Library Syscall

inductive EnumerationPolicy
  | pathsAndMetadataAllowed
  | hashesAndSummariesOnly
  | redactedPathHashOnly
  | fullyRedactedMetadataOnly
  | hashesRetentionWindowsOnly
  | sealedReferenceOnly
  deriving DecidableEq, Repr

inductive AuthorityRequirement
  | anyAgentRead
  | operatorOrQuintetCosign
  | operatorWitnessRequired
  | operatorOnly
  | adminPlusSovereignty
  deriving DecidableEq, Repr

structure TierPolicy where
  tier : AccessTier
  enumeration : EnumerationPolicy
  authority : AuthorityRequirement
  deriving DecidableEq, Repr

/-- `TIER_POLICY_TABLE`, by tier. -/
def policyFor : AccessTier → TierPolicy
  | .publicTier => ⟨.publicTier, .pathsAndMetadataAllowed, .anyAgentRead⟩
  | .restricted => ⟨.restricted, .hashesAndSummariesOnly, .operatorOrQuintetCosign⟩
  | .stealth => ⟨.stealth, .redactedPathHashOnly, .operatorWitnessRequired⟩
  | .hidden => ⟨.hidden, .fullyRedactedMetadataOnly, .operatorOnly⟩
  | .shadow => ⟨.shadow, .hashesRetentionWindowsOnly, .adminPlusSovereignty⟩
  | .secret => ⟨.secret, .sealedReferenceOnly, .operatorWitnessRequired⟩
  | .sovereignty => ⟨.sovereignty, .sealedReferenceOnly, .adminPlusSovereignty⟩

/-- The standing approval does not look at the tier. -/
def quintupleAuthCovers (_ : AccessTier) : Bool := true

inductive HighwayErr
  | sameTier
  | transitForbidden
  | notInQuintupleAuthWindow
  | cosignFailure
  | unimplemented
  deriving DecidableEq, Repr

structure TransitVerdict where
  origin : AccessTier
  destination : AccessTier
  authorized : Bool
  denyReason : Option String
  cosignRow : Option UInt64
  deriving DecidableEq, Repr

/-- `check_transit`. The policies of both tiers are looked up and not used. -/
def checkTransit (origin destination : AccessTier) : Except HighwayErr TransitVerdict :=
  if origin = destination then .error .sameTier
  else if !quintupleAuthCovers destination then
    .ok ⟨origin, destination, false, some "destination tier not in current quintuple-auth window", none⟩
  else
    let _originPolicy := policyFor origin
    let _destinationPolicy := policyFor destination
    .ok ⟨origin, destination, true, none, none⟩

def maxTransitEnvelopeBytes : UInt64 := 64 * 1024

structure TransitRequest where
  fromTier : AccessTier
  toTier : AccessTier
  envelopeSize : UInt64
  deriving DecidableEq, Repr

inductive TransitErr
  | tierMismatch
  | oversizedPayload
  | quintupleAuthRequired
  | chainAppendFailed
  deriving DecidableEq, Repr

/-- `execute`: the reply and `NEXT_TRANSIT_ID` behind the call. -/
def execute (nextTransitId : UInt64) (req : TransitRequest) : Except TransitErr UInt64 × UInt64 :=
  if req.envelopeSize > maxTransitEnvelopeBytes then (.error .oversizedPayload, nextTransitId)
  else
    match checkTransit req.fromTier req.toTier with
    | .error .sameTier => (.error .tierMismatch, nextTransitId)
    | .error _ => (.error .chainAppendFailed, nextTransitId)
    | .ok verdict =>
      if !verdict.authorized then (.error .quintupleAuthRequired, nextTransitId)
      else (.ok nextTransitId, nextTransitId + 1)

structure TransitCall where
  request : TransitRequest
  reply : Except TransitErr UInt64

/-- The only atomic operation of a call is the `fetch_add` at its end, so the
calls of any number of callers come one after the other. -/
def TransitStep (nextTransitId : UInt64) (call : TransitCall) (after : UInt64) : Prop :=
  execute nextTransitId call.request = (call.reply, after)

abbrev TransitHistory := List (Transition UInt64 TransitCall)

/-- The calls since the start of the kernel. -/
abbrev TransitRun (history : TransitHistory) (nextTransitId : UInt64) : Prop := Run TransitStep 1 history nextTransitId

/-- What a transit needs. -/
def TransitRequest.Admitted (req : TransitRequest) : Prop :=
  req.envelopeSize ≤ maxTransitEnvelopeBytes ∧ req.fromTier ≠ req.toTier

instance : DecidablePred TransitRequest.Admitted := fun req =>
  inferInstanceAs (Decidable (req.envelopeSize ≤ maxTransitEnvelopeBytes ∧ req.fromTier ≠ req.toTier))

/-- The ids that were given out, in order. -/
def transitIds (history : TransitHistory) : List UInt64 := history.filterMap (·.label.reply.toOption)

variable {next : UInt64} {req : TransitRequest} {history : TransitHistory}

theorem execute_admitted (admitted : req.Admitted) : execute next req = (.ok next, next + 1) := by
  have small : ¬ req.envelopeSize > maxTransitEnvelopeBytes := UInt64.not_lt.mpr admitted.1
  have passed : checkTransit req.fromTier req.toTier = .ok ⟨req.fromTier, req.toTier, true, none, none⟩ := by
    rw [checkTransit, if_neg admitted.2]
    rfl
  rw [execute, if_neg small, passed]
  rfl

/-- A refused call takes no id, and says whether the payload or the tiers were
at fault. -/
theorem execute_refused (refused : ¬ req.Admitted) : execute next req =
    (.error (if req.envelopeSize > maxTransitEnvelopeBytes then .oversizedPayload else .tierMismatch), next) := by
  rw [execute]
  split
  · rfl
  · next small =>
    have same : req.fromTier = req.toTier := by
      by_contra different
      exact refused ⟨UInt64.not_lt.mp small, different⟩
    rw [checkTransit, if_pos same]

theorem counts_nextTransitId : Counts TransitStep id (·.label.reply.toOption) := by
  intro next call after step
  by_cases admitted : call.request.Admitted
  · rw [TransitStep, execute_admitted admitted, Prod.mk.injEq] at step
    refine .inr ⟨?_, step.2.symm⟩
    dsimp only
    rw [← step.1]
    rfl
  · rw [TransitStep, execute_refused admitted, Prod.mk.injEq] at step
    refine .inl ⟨?_, step.2.symm⟩
    dsimp only
    rw [← step.1]
    rfl

theorem replied_iff {call : TransitCall} {after : UInt64} (step : TransitStep next call after) :
    call.reply.toOption.isSome ↔ call.request.Admitted := by
  by_cases admitted : call.request.Admitted
  · rw [TransitStep, execute_admitted admitted, Prod.mk.injEq] at step
    rw [← step.1]
    exact ⟨fun _ => admitted, fun _ => rfl⟩
  · rw [TransitStep, execute_refused admitted, Prod.mk.injEq] at step
    rw [← step.1]
    exact ⟨nofun, fun other => absurd other admitted⟩

/-- The admitted requests are numbered without a gap in the order of their
calls, and the numbers grow until the counter has gone around. -/
theorem transit_ids (run : TransitRun history next) :
    (∀ step ∈ history, step.label.reply.toOption.isSome ↔ step.label.request.Admitted) ∧
      transitIds history = ticketsFrom 1 (history.countP (·.label.request.Admitted)) ∧
      ((transitIds history).Pairwise (· < ·) ↔ history.countP (·.label.request.Admitted) < UInt64.size) := by
  have replied : ∀ step ∈ history, step.label.reply.toOption.isSome ↔ step.label.request.Admitted :=
    fun step member => replied_iff (run.step_of_mem member)
  obtain ⟨n, values, _⟩ := run.tickets counts_nextTransitId
  have numbers : transitIds history = ticketsFrom 1 n := values
  have count : n = history.countP (·.label.request.Admitted) := by
    rw [← @length_ticketsFrom 1 n, ← numbers, transitIds, List.length_filterMap_eq_countP]
    exact List.countP_congr fun step member => by rw [replied step member, decide_eq_true_eq]
  rw [count] at numbers
  refine ⟨replied, numbers, ?_⟩
  rw [numbers, pairwise_ticketsFrom, show (1 : UInt64).toNat = 1 from rfl]
  omega

/-- Two transits with a refused one between them. -/
def threeTransits : TransitHistory :=
  [⟨1, ⟨⟨.publicTier, .secret, 4096⟩, .ok 1⟩, 2⟩, ⟨2, ⟨⟨.hidden, .hidden, 1⟩, .error .tierMismatch⟩, 2⟩,
    ⟨2, ⟨⟨.publicTier, .sovereignty, 65536⟩, .ok 2⟩, 3⟩]

theorem transit_ids_three : transitIds threeTransits = [1, 2] := by
  have first : TransitRun [] 1 := .start
  have second := first.next (show TransitStep 1 ⟨⟨.publicTier, .secret, 4096⟩, .ok 1⟩ 2 from rfl)
  have third := second.next (show TransitStep 2 ⟨⟨.hidden, .hidden, 1⟩, .error .tierMismatch⟩ 2 from rfl)
  have run : TransitRun threeTransits 3 :=
    third.next (show TransitStep 2 ⟨⟨.publicTier, .sovereignty, 65536⟩, .ok 2⟩ 3 from rfl)
  exact (transit_ids run).2.1.trans (by decide)

end Asolaria.Tier
