import Asolaria.CycleOrch.PeerRun
import Asolaria.Library.MachineInt

namespace Asolaria.CycleOrch
open Library PeerStateMachine

/-- What a call writes ahead of its transition is there already. -/
def WritesNothing (psm : PeerStateMachine) : PeerCall → Prop
  | .onKick _ deadlineNsFromNow nowNs => psm.kickDeadlineNs = some (nowNs + deadlineNsFromNow)
  | .onReply .. => psm.strikes = 0
  | .onDrift .. => False
  | .transition .. | .onHalt .. => True

theorem prepare_eq_iff (psm : PeerStateMachine) (call : PeerCall) : psm.prepare call = psm ↔ WritesNothing psm call := by
  cases call with
  | transition | onHalt => simp [prepare, WritesNothing]
  | onKick => simp [prepare, WritesNothing, PeerStateMachine.ext_iff, eq_comm]
  | onReply => simp [prepare, WritesNothing, PeerStateMachine.ext_iff, eq_comm]
  | onDrift => simp [prepare, WritesNothing, PeerStateMachine.ext_iff]

/-- A call that fails leaves the machine as it was, unless it had written its
own field before the transition was refused. -/
theorem error_keeps_machine_iff (psm : PeerStateMachine) (call : PeerCall) :
    (∀ error, (psm.perform call).1 = .error error → (psm.perform call).2 = psm) ↔
      call.next ∈ legalTransitions psm.state ∨ WritesNothing psm call := by
  rw [← prepare_eq_iff]
  rcases psm.perform_cases call with ⟨legal, performed⟩ | ⟨illegal, performed⟩
  · rw [performed]
    exact iff_of_true (by simp) (.inl legal)
  · rw [performed, or_iff_right illegal]
    simp

theorem drift_counts_on_dark : PeerRun "test-peer" [] (PeerStateMachine.new "test-peer") ∧
    ¬ ∀ error, ((PeerStateMachine.new "test-peer").perform (.onDrift "seal" 100)).1 = .error error →
      ((PeerStateMachine.new "test-peer").perform (.onDrift "seal" 100)).2 = PeerStateMachine.new "test-peer" := by
  refine ⟨.start, fun kept => ?_⟩
  have strikes := congrArg PeerStateMachine.strikes (kept "illegal_transition" rfl)
  cases strikes

/-- The exact deadline of a kick that was accepted. -/
def acceptedKick (call : PeerTransition) : Option Nat :=
  match call.label with
  | (.onKick _ deadlineNsFromNow nowNs, .ok ()) => some (nowNs.toNat + deadlineNsFromNow.toNat)
  | _ => none

/-- The deadline of the most recent kick that was accepted. -/
def lastKick (calls : List PeerTransition) : Option Nat := (calls.filterMap acceptedKick).getLast?

structure OverdueLaw (calls : List PeerTransition) (psm : PeerStateMachine) : Prop where
  kicked : psm.state = .kicked → ∃ deadline, lastKick calls = some deadline ∧
    ∀ t : UInt64, psm.isOverdue t = true ↔ deadline < t.toNat
  others : psm.state ≠ .kicked → ∀ t : UInt64, psm.isOverdue t = false

/-- The state `Kicked` is entered through `on_kick` only. -/
def KickedByKicks (calls : List PeerTransition) : Prop :=
  ∀ call ∈ calls, ∀ reason nowNs, call.label ≠ (.transition .kicked reason nowNs, .ok ())

/-- A kick from a state that accepts it has a deadline in the range of the
clock, and one on a peer that is kicked already repeats the deadline stored. -/
def KickFits (call : PeerTransition) : Prop :=
  ∀ kickText deadlineNsFromNow nowNs, call.label.1 = .onKick kickText deadlineNsFromNow nowNs →
    (call.before.state = .alive ∨ call.before.state = .responding → nowNs.toNat + deadlineNsFromNow.toNat < 2 ^ 64) ∧
    (call.before.state = .kicked → call.before.kickDeadlineNs = some (nowNs + deadlineNsFromNow))

variable {psm after : PeerStateMachine} {calls : List PeerTransition} {peerId : String}

theorem isOverdue_kicked {deadline : UInt64} (kicked : psm.state = .kicked) (stored : psm.kickDeadlineNs = some deadline)
    (t : UInt64) : psm.isOverdue t = true ↔ deadline < t := by
  unfold isOverdue
  rw [kicked, stored]
  exact decide_eq_true_iff

theorem isOverdue_other (other : psm.state ≠ .kicked) (t : UInt64) : psm.isOverdue t = false := by
  unfold isOverdue
  split
  · next kicked _ => exact absurd kicked other
  · rfl

/-- A kicked machine has the deadline of the last accepted kick. -/
def DeadlineStored (calls : List PeerTransition) (psm : PeerStateMachine) : Prop :=
  psm.state = .kicked → ∃ deadline, psm.kickDeadlineNs = some deadline ∧ lastKick calls = some deadline.toNat

theorem DeadlineStored.law (stored : DeadlineStored calls psm) : OverdueLaw calls psm where
  kicked := by
    intro kicked
    obtain ⟨deadline, kept, last⟩ := stored kicked
    refine ⟨deadline.toNat, last, fun t => ?_⟩
    rw [isOverdue_kicked kicked kept, UInt64.lt_iff_toNat_lt]
  others := fun other => isOverdue_other other

theorem lastKick_concat (calls : List PeerTransition) (call : PeerTransition) :
    lastKick (calls ++ [call]) = (acceptedKick call).or (lastKick calls) := by
  rw [lastKick, List.filterMap_append, filterMap_single, List.getLast?_append]
  cases acceptedKick call with
  | none => rfl
  | some deadline => rfl

theorem acceptedKick_refused {call : PeerCall} {error : String} :
    acceptedKick ⟨psm, (call, .error error), after⟩ = none := by
  cases call with
  | transition | onKick | onReply | onDrift | onHalt => rfl

/-- A state that a kick may be issued in. -/
theorem kicked_legal_iff (state : PeerState) :
    PeerState.kicked ∈ legalTransitions state ↔ state = .alive ∨ state = .responding := by
  cases state with
  | dark | probing | alive | kicked | responding | drift | halt => decide

/-- An accepted kick whose sum fits stores its exact deadline. -/
theorem DeadlineStored.accepted {kickText : String} {deadlineNsFromNow nowNs : UInt64}
    (fits : nowNs.toNat + deadlineNsFromNow.toNat < 2 ^ 64)
    (deadline : after.kickDeadlineNs = some (nowNs + deadlineNsFromNow)) :
    DeadlineStored (calls ++ [⟨psm, (.onKick kickText deadlineNsFromNow nowNs, .ok ()), after⟩]) after := by
  intro _
  refine ⟨_, deadline, ?_⟩
  rw [lastKick_concat, toNat_add_of_lt fits]
  rfl

/-- A refused call keeps the deadline unless it is a kick with another one. -/
theorem DeadlineStored.refused (stored : DeadlineStored calls psm) {call : PeerCall} {error : String}
    (fits : KickFits ⟨psm, (call, .error error), psm.prepare call⟩) :
    DeadlineStored (calls ++ [⟨psm, (call, .error error), psm.prepare call⟩]) (psm.prepare call) := by
  intro kicked
  rw [prepare_state] at kicked
  obtain ⟨deadline, kept, last⟩ := stored kicked
  refine ⟨deadline, ?_, by rw [lastKick_concat, acceptedKick_refused, Option.none_or, last]⟩
  cases call with
  | onKick kickText deadlineNsFromNow nowNs =>
    have same := (fits kickText deadlineNsFromNow nowNs rfl).2 kicked
    exact same.symm.trans kept
  | transition | onReply | onDrift | onHalt => exact kept

theorem PeerRun.deadlineStored (run : PeerRun peerId calls psm) (only : KickedByKicks calls)
    (fits : ∀ call ∈ calls, KickFits call) : DeadlineStored calls psm := by
  induction run with
  | start => exact fun kicked => by cases kicked
  | @next calls psm label after previous step ih =>
    have stored := ih (fun call member => only call (List.mem_append_left _ member))
      (fun call member => fits call (List.mem_append_left _ member))
    have onlyLast := only _ (List.mem_append_right _ (List.mem_singleton_self _))
    have fitsLast := fits _ (List.mem_append_right _ (List.mem_singleton_self _))
    cases step with
    | perform call =>
      rcases psm.perform_cases call with ⟨legal, performed⟩ | ⟨illegal, performed⟩
      · rw [performed] at onlyLast fitsLast ⊢
        intro kicked
        cases call with
        | onKick kickText deadlineNsFromNow nowNs =>
          have fit := (fitsLast kickText deadlineNsFromNow nowNs rfl).1 ((kicked_legal_iff _).mp legal)
          exact DeadlineStored.accepted fit rfl kicked
        | transition next reason nowNs =>
          cases kicked
          exact absurd rfl (onlyLast reason nowNs)
        | onReply | onDrift | onHalt => cases kicked
      · rw [performed] at fitsLast ⊢
        exact stored.refused fitsLast

/-- A machine that was kicked by `on_kick` has some deadline. -/
theorem PeerRun.kicked_has_deadline (run : PeerRun peerId calls psm) (only : KickedByKicks calls)
    (kicked : psm.state = .kicked) : ∃ deadline, psm.kickDeadlineNs = some deadline := by
  induction run with
  | start => cases kicked
  | @next calls psm label after previous step ih =>
    have earlier := ih fun call member => only call (List.mem_append_left _ member)
    have onlyLast := only _ (List.mem_append_right _ (List.mem_singleton_self _))
    cases step with
    | perform call =>
      rcases psm.perform_cases call with ⟨_, performed⟩ | ⟨_, performed⟩
      · rw [performed] at onlyLast kicked ⊢
        cases call with
        | onKick => exact ⟨_, rfl⟩
        | transition next reason nowNs =>
          cases kicked
          exact absurd rfl (onlyLast reason nowNs)
        | onReply | onDrift | onHalt => cases kicked
      · rw [performed] at kicked ⊢
        rw [prepare_state] at kicked
        cases call with
        | onKick => exact ⟨_, rfl⟩
        | transition | onReply | onDrift | onHalt => exact earlier kicked

/-- A kick from `Alive` or `Responding` is accepted. -/
theorem onKick_accepted {kickText : String} {deadlineNsFromNow nowNs : UInt64} {result : Except String Unit}
    (able : psm.state = .alive ∨ psm.state = .responding)
    (step : PeerStep psm (.onKick kickText deadlineNsFromNow nowNs, result) after) :
    result = .ok () ∧ after.state = .kicked ∧ after.kickDeadlineNs = some (nowNs + deadlineNsFromNow) := by
  cases step
  rcases psm.perform_cases (.onKick kickText deadlineNsFromNow nowNs) with ⟨_, performed⟩ | ⟨illegal, _⟩
  · rw [performed]
    exact ⟨rfl, rfl, rfl⟩
  · exact absurd ((kicked_legal_iff _).mpr able) illegal

/-- A kick on a kicked machine is refused, but its deadline is stored. -/
theorem onKick_refused {kickText : String} {deadlineNsFromNow nowNs : UInt64} {result : Except String Unit}
    (kicked : psm.state = .kicked)
    (step : PeerStep psm (.onKick kickText deadlineNsFromNow nowNs, result) after) :
    result = .error "illegal_transition" ∧ after.state = .kicked ∧
      after.kickDeadlineNs = some (nowNs + deadlineNsFromNow) := by
  cases step
  rcases psm.perform_cases (.onKick kickText deadlineNsFromNow nowNs) with ⟨legal, _⟩ | ⟨_, performed⟩
  · have able := (kicked_legal_iff _).mp legal
    rw [kicked] at able
    exact absurd able (by decide)
  · rw [performed]
    exact ⟨rfl, kicked, rfl⟩

/-- The law after an accepted kick leaves no room for a sum that wraps. -/
theorem OverdueLaw.accepted_fits {kickText : String} {deadlineNsFromNow nowNs : UInt64} {result : Except String Unit}
    (able : psm.state = .alive ∨ psm.state = .responding)
    (step : PeerStep psm (.onKick kickText deadlineNsFromNow nowNs, result) after)
    (law : OverdueLaw (calls ++ [⟨psm, (.onKick kickText deadlineNsFromNow nowNs, result), after⟩]) after) :
    nowNs.toNat + deadlineNsFromNow.toNat < 2 ^ 64 := by
  obtain ⟨rfl, kicked, stored⟩ := onKick_accepted able step
  obtain ⟨deadline, last, overdue⟩ := law.kicked kicked
  rw [lastKick_concat] at last
  obtain rfl := Option.some.inj last
  -- the last instant of the clock is past a wrapped deadline, never past the exact one
  have atEnd := overdue (UInt64.ofNat (2 ^ 64 - 1))
  rw [isOverdue_kicked kicked stored, UInt64.lt_iff_toNat_lt, UInt64.toNat_add,
    UInt64.toNat_ofNat_of_lt' (by decide)] at atEnd
  have := nowNs.toNat_lt
  have := deadlineNsFromNow.toNat_lt
  omega

/-- The law on both sides of a refused kick keeps the deadline. -/
theorem OverdueLaw.refused_same {kickText : String} {deadlineNsFromNow nowNs deadline : UInt64}
    {result : Except String Unit} (kicked : psm.state = .kicked) (stored : psm.kickDeadlineNs = some deadline)
    (step : PeerStep psm (.onKick kickText deadlineNsFromNow nowNs, result) after) (law : OverdueLaw calls psm)
    (lawAfter : OverdueLaw (calls ++ [⟨psm, (.onKick kickText deadlineNsFromNow nowNs, result), after⟩]) after) :
    deadline = nowNs + deadlineNsFromNow := by
  obtain ⟨rfl, kickedAfter, storedAfter⟩ := onKick_refused kicked step
  obtain ⟨exactDeadline, last, overdue⟩ := law.kicked kicked
  obtain ⟨sameDeadline, lastAfter, overdueAfter⟩ := lawAfter.kicked kickedAfter
  rw [lastKick_concat, acceptedKick_refused, Option.none_or, last] at lastAfter
  obtain rfl := Option.some.inj lastAfter
  have agree (t : UInt64) : deadline < t ↔ nowNs + deadlineNsFromNow < t := by
    rw [← isOverdue_kicked kicked stored, overdue, ← overdueAfter, isOverdue_kicked kickedAfter storedAfter]
  have notBefore := (agree (nowNs + deadlineNsFromNow)).not.mpr (UInt64.lt_irrefl _)
  have notAfter := (agree deadline).not.mp (UInt64.lt_irrefl _)
  exact UInt64.le_antisymm (UInt64.not_lt.mp notAfter) (UInt64.not_lt.mp notBefore)

/-- A run keeps the law of `is_overdue` in every state it reaches exactly when
each of its kicks fits. -/
theorem PeerRun.overdue_law_iff (run : PeerRun peerId calls psm) (only : KickedByKicks calls) :
    (∀ earlier later, calls = earlier ++ later → ∀ current, PeerRun peerId earlier current →
      OverdueLaw earlier current) ↔ ∀ call ∈ calls, KickFits call := by
  refine ⟨fun laws call member => ?_, fun fits earlier later parts current reached => ?_⟩
  · obtain ⟨earlier, later, rfl⟩ := List.append_of_mem member
    obtain ⟨reached, step⟩ := run.split rfl
    obtain ⟨before, ⟨performed, result⟩, after⟩ := call
    intro kickText deadlineNsFromNow nowNs kick
    obtain rfl : performed = .onKick kickText deadlineNsFromNow nowNs := kick
    have lawAfter := laws (earlier ++ [_]) later (by simp) after (.next reached step)
    refine ⟨fun able => lawAfter.accepted_fits able step, fun kicked => ?_⟩
    have law := laws earlier _ rfl before reached
    have onlyEarlier : KickedByKicks earlier := fun call old => only call (List.mem_append_left _ old)
    obtain ⟨deadline, stored⟩ := PeerRun.kicked_has_deadline reached onlyEarlier kicked
    exact stored.trans (congrArg some (law.refused_same kicked stored step lawAfter))
  · subst parts
    exact (reached.deadlineStored (fun call old => only call (List.mem_append_left _ old))
      (fun call old => fits call (List.mem_append_left _ old))).law

/-- A probe, an answer and a kick with a deadline of 1000 ns. -/
def kickedRun : List PeerTransition :=
  let fresh := PeerStateMachine.new "test-peer"
  let probed := (fresh.transition .probing "probe" 100).2
  let answered := (probed.transition .alive "alive" 200).2
  [⟨fresh, (.transition .probing "probe" 100, .ok ()), probed⟩,
    ⟨probed, (.transition .alive "alive" 200, .ok ()), answered⟩,
    ⟨answered, (.onKick "hi" 1000 300, .ok ()), (answered.onKick "hi" 1000 300).2⟩]

def kickedMachine : PeerStateMachine where
  peerId := "test-peer"
  state := .kicked
  history := [⟨100, .dark, .probing, "probe"⟩, ⟨200, .probing, .alive, "alive"⟩, ⟨300, .alive, .kicked, "kick-issued"⟩]
  lastTransitionNs := 300
  kickDeadlineNs := some 1300
  strikes := 0

theorem kickedRun_reached : PeerRun "test-peer" kickedRun kickedMachine := by
  have probed : PeerRun "test-peer" (kickedRun.take 1) _ := .next .start (.perform (.transition .probing "probe" 100))
  have answered : PeerRun "test-peer" (kickedRun.take 2) _ := .next probed (.perform (.transition .alive "alive" 200))
  exact .next answered (.perform (.onKick "hi" 1000 300))

/-- A second kick while the first is pending, refused as illegal. -/
def rekickedRun : List PeerTransition :=
  kickedRun ++ [⟨kickedMachine, (.onKick "hi" 5000 400, .error "illegal_transition"),
    { kickedMachine with kickDeadlineNs := some 5400 }⟩]

theorem rekickedRun_reached : PeerRun "test-peer" rekickedRun { kickedMachine with kickDeadlineNs := some 5400 } :=
  .next kickedRun_reached (.perform (.onKick "hi" 5000 400))

theorem kickedByKicks_rekicked : KickedByKicks rekickedRun := by
  unfold KickedByKicks
  simp [rekickedRun, kickedRun]

theorem kickFits_kicked : ∀ call ∈ kickedRun, KickFits call := by
  intro call member kickText deadlineNsFromNow nowNs kick
  simp only [kickedRun, List.mem_cons, List.not_mem_nil, or_false] at member
  obtain rfl | rfl | rfl := member
  · cases kick
  · cases kick
  · cases kick
    decide

theorem PeerRun.overdue_law_kicked : KickedByKicks kickedRun ∧ ∀ earlier later, kickedRun = earlier ++ later →
    ∀ current, PeerRun "test-peer" earlier current → OverdueLaw earlier current := by
  have only : KickedByKicks kickedRun := fun call member => kickedByKicks_rekicked call (List.mem_append_left _ member)
  exact ⟨only, (kickedRun_reached.overdue_law_iff only).mpr kickFits_kicked⟩

/-- The refused kick moves the deadline of the accepted one. -/
theorem PeerRun.overdue_law_rekicked : KickedByKicks rekickedRun ∧
    PeerRun "test-peer" rekickedRun { kickedMachine with kickDeadlineNs := some 5400 } ∧
    ¬ OverdueLaw rekickedRun { kickedMachine with kickDeadlineNs := some 5400 } := by
  refine ⟨kickedByKicks_rekicked, rekickedRun_reached, fun law => ?_⟩
  obtain ⟨deadline, last, overdue⟩ := law.kicked rfl
  obtain rfl : 1300 = deadline := Option.some.inj last
  exact absurd ((overdue 2000).mpr (by decide)) (by decide)

end Asolaria.CycleOrch
