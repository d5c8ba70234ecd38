import Asolaria.Library.Run

namespace Asolaria.CycleOrch

inductive PeerState
  | dark
  | probing
  | alive
  | kicked
  | responding
  | drift
  | halt
  deriving DecidableEq, Repr

def legalTransitions : PeerState → List PeerState
  | .dark => [.probing]
  | .probing => [.alive, .dark]
  | .alive => [.kicked, .dark, .probing]
  | .kicked => [.responding, .drift, .halt, .dark]
  | .responding => [.alive, .kicked, .drift, .halt]
  | .drift => [.alive, .halt, .dark]
  | .halt => [.dark]

structure TransitionRecord where
  tsNs : UInt64
  fromState : PeerState
  toState : PeerState
  reason : String
  deriving DecidableEq, Repr

@[ext] structure PeerStateMachine where
  peerId : String
  state : PeerState
  history : List TransitionRecord
  lastTransitionNs : UInt64
  kickDeadlineNs : Option UInt64
  strikes : UInt32
  deriving DecidableEq, Repr

/-- The length at which the history drops its oldest record. -/
def historyCap : Nat := 256

namespace PeerStateMachine

def new (peerId : String) : PeerStateMachine where
  peerId := peerId
  state := .dark
  history := []
  lastTransitionNs := 0
  kickDeadlineNs := none
  strikes := 0

/-- `push_back`, and `pop_front` once the history is too long. -/
def pushRecord (history : List TransitionRecord) (record : TransitionRecord) : List TransitionRecord :=
  let history := history ++ [record]
  if history.length > historyCap then history.drop 1 else history

def transition (psm : PeerStateMachine) (next : PeerState) (reason : String) (nowNs : UInt64) :
    Except String Unit × PeerStateMachine :=
  if next ∉ legalTransitions psm.state then (.error "illegal_transition", psm)
  else
    (.ok (), { psm with
      state := next
      lastTransitionNs := nowNs
      history := pushRecord psm.history ⟨nowNs, psm.state, next, reason⟩ })

/-- The deadline is stored before the transition is checked, and its sum wraps
around in the release profile. -/
def onKick (psm : PeerStateMachine) (_kickText : String) (deadlineNsFromNow nowNs : UInt64) :
    Except String Unit × PeerStateMachine :=
  { psm with kickDeadlineNs := some (nowNs + deadlineNsFromNow) }.transition .kicked "kick-issued" nowNs

def onReply (psm : PeerStateMachine) (_replyVerb : String) (nowNs : UInt64) : Except String Unit × PeerStateMachine :=
  { psm with strikes := 0 }.transition .responding "reply-observed" nowNs

def onDrift (psm : PeerStateMachine) (_diffSummary : String) (nowNs : UInt64) : Except String Unit × PeerStateMachine :=
  { psm with strikes := psm.strikes + 1 }.transition .drift "drift-detected" nowNs

def onHalt (psm : PeerStateMachine) (_predicate : String) (nowNs : UInt64) : Except String Unit × PeerStateMachine :=
  psm.transition .halt "halt-predicate-fired" nowNs

def isOverdue (psm : PeerStateMachine) (nowNs : UInt64) : Bool :=
  match psm.state, psm.kickDeadlineNs with
  | .kicked, some dl => nowNs > dl
  | _, _ => false

end PeerStateMachine

inductive PeerCall
  | transition (next : PeerState) (reason : String) (nowNs : UInt64)
  | onKick (kickText : String) (deadlineNsFromNow nowNs : UInt64)
  | onReply (replyVerb : String) (nowNs : UInt64)
  | onDrift (diffSummary : String) (nowNs : UInt64)
  | onHalt (predicate : String) (nowNs : UInt64)
  deriving DecidableEq, Repr

def PeerStateMachine.perform (psm : PeerStateMachine) : PeerCall → Except String Unit × PeerStateMachine
  | .transition next reason nowNs => psm.transition next reason nowNs
  | .onKick kickText deadlineNsFromNow nowNs => psm.onKick kickText deadlineNsFromNow nowNs
  | .onReply replyVerb nowNs => psm.onReply replyVerb nowNs
  | .onDrift diffSummary nowNs => psm.onDrift diffSummary nowNs
  | .onHalt predicate nowNs => psm.onHalt predicate nowNs

namespace PeerCall

/-- The state a call asks for. -/
def next : PeerCall → PeerState
  | transition next _ _ => next
  | onKick .. => .kicked
  | onReply .. => .responding
  | onDrift .. => .drift
  | onHalt .. => .halt

def reason : PeerCall → String
  | transition _ reason _ => reason
  | onKick .. => "kick-issued"
  | onReply .. => "reply-observed"
  | onDrift .. => "drift-detected"
  | onHalt .. => "halt-predicate-fired"

def nowNs : PeerCall → UInt64
  | transition _ _ nowNs => nowNs
  | onKick _ _ nowNs => nowNs
  | onReply _ nowNs => nowNs
  | onDrift _ nowNs => nowNs
  | onHalt _ nowNs => nowNs

end PeerCall

namespace PeerStateMachine

/-- What a call writes before it tries its transition. -/
def prepare (psm : PeerStateMachine) : PeerCall → PeerStateMachine
  | .onKick _ deadlineNsFromNow nowNs => { psm with kickDeadlineNs := some (nowNs + deadlineNsFromNow) }
  | .onReply .. => { psm with strikes := 0 }
  | .onDrift .. => { psm with strikes := psm.strikes + 1 }
  | .transition .. | .onHalt .. => psm

variable (psm : PeerStateMachine) (call : PeerCall)

theorem perform_eq : psm.perform call = (psm.prepare call).transition call.next call.reason call.nowNs := by
  cases call with
  | transition | onKick | onReply | onDrift | onHalt => rfl

@[simp] theorem prepare_state : (psm.prepare call).state = psm.state := by
  cases call with
  | transition | onKick | onReply | onDrift | onHalt => rfl

@[simp] theorem prepare_history : (psm.prepare call).history = psm.history := by
  cases call with
  | transition | onKick | onReply | onDrift | onHalt => rfl

@[simp] theorem prepare_lastTransitionNs : (psm.prepare call).lastTransitionNs = psm.lastTransitionNs := by
  cases call with
  | transition | onKick | onReply | onDrift | onHalt => rfl

/-- The record that a call leaves if its transition is legal. -/
def recordOf : TransitionRecord := ⟨call.nowNs, psm.state, call.next, call.reason⟩

/-- Everything a call can do: its transition is legal and recorded, or nothing
changes but what was written before it. -/
theorem perform_cases :
    (call.next ∈ legalTransitions psm.state ∧ psm.perform call = (.ok (), { psm.prepare call with
      state := call.next
      lastTransitionNs := call.nowNs
      history := pushRecord psm.history (psm.recordOf call) })) ∨
    call.next ∉ legalTransitions psm.state ∧ psm.perform call = (.error "illegal_transition", psm.prepare call) := by
  rw [perform_eq, PeerStateMachine.transition, prepare_state, prepare_history]
  by_cases legal : call.next ∈ legalTransitions psm.state
  · rw [if_neg (not_not.mpr legal)]
    exact .inl ⟨legal, rfl⟩
  · rw [if_pos legal]
    exact .inr ⟨legal, rfl⟩

end PeerStateMachine

end Asolaria.CycleOrch
