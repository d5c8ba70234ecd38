import Asolaria.CycleOrch.PeerStateMachine
import Mathlib.Data.List.Chain
import Mathlib.Data.List.DropRight

namespace Asolaria.CycleOrch
open Library PeerStateMachine

/-- One call with any arguments, and what it returned. -/
inductive PeerStep (psm : PeerStateMachine) : PeerCall × Except String Unit → PeerStateMachine → Prop
  | perform (call) : PeerStep psm (call, (psm.perform call).1) (psm.perform call).2

abbrev PeerTransition := Transition PeerStateMachine (PeerCall × Except String Unit)

def PeerRun (peerId : String) (calls : List PeerTransition) (psm : PeerStateMachine) : Prop :=
  Run PeerStep (PeerStateMachine.new peerId) calls psm

/-- The record of a call that succeeded. -/
def succeeded (call : PeerTransition) : Option TransitionRecord :=
  match call.label.2 with
  | .ok () => some ⟨call.label.1.nowNs, call.before.state, call.label.1.next, call.label.1.reason⟩
  | .error _ => none

/-- The successful transitions of a run, in order. -/
def transitions (calls : List PeerTransition) : List TransitionRecord := calls.filterMap succeeded

/-- The next record starts where this one ended. -/
def Linked (record next : TransitionRecord) : Prop := next.fromState = record.toState

/-- The records of a run lead from the first state to the current one. -/
structure Leads (records : List TransitionRecord) (psm : PeerStateMachine) : Prop where
  legal : ∀ record ∈ records, record.toState ∈ legalTransitions record.fromState
  linked : records.IsChain Linked
  first : ∀ record ∈ records.head?, record.fromState = .dark
  state : psm.state = (records.getLast?.map TransitionRecord.toState).getD .dark
  lastTransitionNs : psm.lastTransitionNs = (records.getLast?.map TransitionRecord.tsNs).getD 0
  window : psm.history = records.rtake historyCap

variable {psm after : PeerStateMachine} {call : PeerCall} {result : Except String Unit} {peerId : String}
  {calls : List PeerTransition} {records : List TransitionRecord}

theorem Leads.new (peerId : String) : Leads [] (PeerStateMachine.new peerId) where
  legal := by simp
  linked := .nil
  first := by simp
  state := rfl
  lastTransitionNs := rfl
  window := rfl

/-- Dropping the oldest record keeps the window at the latest ones. -/
theorem pushRecord_rtake (records : List TransitionRecord) (record : TransitionRecord) :
    pushRecord (records.rtake historyCap) record = (records ++ [record]).rtake historyCap := by
  unfold pushRecord List.rtake
  by_cases short : records.length < historyCap
  · have kept : records.length - historyCap = 0 := by omega
    have keptLater : (records ++ [record]).length - historyCap = 0 := by
      rw [List.length_append, List.length_singleton]
      omega
    rw [kept, keptLater, List.drop_zero, List.drop_zero, if_neg]
    rw [List.length_append, List.length_singleton]
    omega
  · have dropped : (records ++ [record]).length - historyCap = records.length - historyCap + 1 := by
      rw [List.length_append, List.length_singleton]
      omega
    rw [dropped, if_pos]
    · rw [← List.drop_append_of_le_length (Nat.sub_le _ _), List.drop_drop]
    · rw [List.length_append, List.length_drop, List.length_singleton]
      omega

/-- A legal transition extends the records by its own. -/
theorem Leads.extended (leads : Leads records psm) (legal : call.next ∈ legalTransitions psm.state) :
    Leads (records ++ [psm.recordOf call]) { psm.prepare call with
      state := call.next
      lastTransitionNs := call.nowNs
      history := pushRecord psm.history (psm.recordOf call) } where
  legal := by
    intro record member
    rcases List.mem_append.mp member with old | new
    · exact leads.legal record old
    · rw [List.mem_singleton.mp new]
      exact legal
  linked := by
    refine leads.linked.append (.singleton _) ?_
    intro record last next head
    rw [List.head?_singleton, Option.mem_some_iff] at head
    rw [← head, Linked, PeerStateMachine.recordOf, leads.state, Option.mem_def.mp last]
    rfl
  first := by
    intro record head
    cases records with
    | nil =>
      rw [List.nil_append, List.head?_singleton, Option.mem_some_iff] at head
      rw [← head]
      exact leads.state
    | cons oldest rest => exact leads.first record head
  state := by simp [PeerStateMachine.recordOf]
  lastTransitionNs := by simp [PeerStateMachine.recordOf]
  window := by rw [leads.window, pushRecord_rtake]

theorem Leads.prepare (leads : Leads records psm) (call : PeerCall) : Leads records (psm.prepare call) where
  legal := leads.legal
  linked := leads.linked
  first := leads.first
  state := by rw [prepare_state, leads.state]
  lastTransitionNs := by rw [prepare_lastTransitionNs, leads.lastTransitionNs]
  window := by rw [prepare_history, leads.window]

theorem PeerRun.leads (run : PeerRun peerId calls psm) : Leads (transitions calls) psm := by
  induction run with
  | start => exact Leads.new peerId
  | @next calls psm label after previous step ih =>
    cases step with
    | perform call =>
      rw [transitions, List.filterMap_append, filterMap_single]
      rcases psm.perform_cases call with ⟨legal, performed⟩ | ⟨_, performed⟩
      · rw [performed]
        exact ih.extended legal
      · rw [performed]
        simp only [succeeded, Option.toList_none, List.append_nil]
        exact ih.prepare call

/-- What the history of a machine says of the run that led to it. -/
structure HistoryOfRun (calls : List PeerTransition) (psm : PeerStateMachine) : Prop where
  window : psm.history = (transitions calls).rtake 256
  length : psm.history.length = min 256 (transitions calls).length
  legal : ∀ record ∈ psm.history, record.toState ∈ legalTransitions record.fromState
  linked : psm.history.IsChain Linked
  first : (transitions calls).length ≤ 256 → ∀ record ∈ psm.history.head?, record.fromState = .dark
  last : 0 < (transitions calls).length → ∃ record, psm.history.getLast? = some record ∧
    record.toState = psm.state ∧ record.tsNs = psm.lastTransitionNs

/-- In every run the history holds the latest successful transitions, each
legal and linked to the one before it, up to the current state. -/
theorem PeerRun.history_of_run (run : PeerRun peerId calls psm) : HistoryOfRun calls psm where
  window := run.leads.window
  length := by
    rw [run.leads.window, List.rtake, List.length_drop, historyCap]
    omega
  legal := by
    intro record member
    rw [run.leads.window] at member
    exact run.leads.legal record (List.mem_of_mem_drop member)
  linked := by
    rw [run.leads.window]
    exact run.leads.linked.drop _
  first := by
    intro whole
    have untouched : (transitions calls).length - historyCap = 0 := by
      rw [historyCap]
      omega
    rw [run.leads.window, List.rtake, untouched, List.drop_zero]
    exact run.leads.first
  last := by
    intro some
    have present := List.getLast?_isSome.mpr (List.ne_nil_of_length_pos some)
    obtain ⟨record, last⟩ := Option.isSome_iff_exists.mp present
    have state := run.leads.state
    have stamp := run.leads.lastTransitionNs
    rw [last] at state stamp
    refine ⟨record, ?_, state.symm, stamp.symm⟩
    rw [run.leads.window, List.rtake, List.getLast?_drop, if_neg, last]
    rw [historyCap]
    omega

/-- A probe, an illegal jump and an answer. -/
def probedRun : List PeerTransition :=
  let fresh := PeerStateMachine.new "test-peer"
  let probed := (fresh.transition .probing "probe" 100).2
  [⟨fresh, (.transition .probing "probe" 100, .ok ()), probed⟩,
    ⟨probed, (.onHalt "U-008" 150, .error "illegal_transition"), probed⟩,
    ⟨probed, (.transition .alive "got-reply" 200, .ok ()), (probed.transition .alive "got-reply" 200).2⟩]

def probedMachine : PeerStateMachine :=
  ⟨"test-peer", .alive, [⟨100, .dark, .probing, "probe"⟩, ⟨200, .probing, .alive, "got-reply"⟩], 200, none, 0⟩

theorem PeerRun.history_of_probed : HistoryOfRun probedRun probedMachine := by
  have probed : PeerRun "test-peer" (probedRun.take 1) _ := .next .start (.perform (.transition .probing "probe" 100))
  have refused : PeerRun "test-peer" (probedRun.take 2) _ := .next probed (.perform (.onHalt "U-008" 150))
  have answered : PeerRun "test-peer" probedRun probedMachine :=
    .next refused (.perform (.transition .alive "got-reply" 200))
  exact answered.history_of_run

end Asolaria.CycleOrch
