import Mathlib.Data.List.Basic

namespace Library

/-- A program that works by calls: it has a result, or it makes one call and
goes on with the reply. -/
inductive Calls (Call : Type) (Reply : Call → Type) (α : Type)
  | done (result : α)
  | call (request : Call) (next : Reply request → Calls Call Reply α)

namespace Calls

variable {Call State α β : Type} {Reply : Call → Type}

protected def bind : Calls Call Reply α → (α → Calls Call Reply β) → Calls Call Reply β
  | done result, rest => rest result
  | call request next, rest => .call request fun reply => (next reply).bind rest

instance : Monad (Calls Call Reply) where
  pure := .done
  bind := Calls.bind

/-- The program that makes one call and returns the reply. -/
def invoke (request : Call) : Calls Call Reply (Reply request) := .call request .done

/-- The program run by itself, with a state that serves the calls. -/
def runOn (serve : State → (request : Call) → Reply request × State) : Calls Call Reply α → State → α × State
  | done result, s => (result, s)
  | call request next, s => (next (serve s request).1).runOn serve (serve s request).2

section
variable (serve : State → (request : Call) → Reply request × State)

@[simp] theorem runOn_pure (result : α) (s : State) : (pure result : Calls Call Reply α).runOn serve s = (result, s) := rfl

@[simp] theorem runOn_bind (program : Calls Call Reply α) (rest : α → Calls Call Reply β) (s : State) :
    (program >>= rest).runOn serve s = (rest (program.runOn serve s).1).runOn serve (program.runOn serve s).2 := by
  induction program generalizing s with
  | done result => rfl
  | call request next ih => exact ih (serve s request).1 (serve s request).2

end

/-- The calls a program makes to the end and its result, where every reply
is one that may come. -/
inductive Trace (Answers : (request : Call) → Reply request → Prop) :
    Calls Call Reply α → List (Σ request, Reply request) → α → Prop
  | done {result} : Trace Answers (.done result) [] result
  | call {request next reply events result} : Answers request reply → Trace Answers (next reply) events result →
      Trace Answers (.call request next) (⟨request, reply⟩ :: events) result

section
variable {Answers : (request : Call) → Reply request → Prop} {events : List (Σ request, Reply request)}

theorem Trace.of_pure {value result : α} (trace : Trace Answers (pure value : Calls Call Reply α) events result) :
    events = [] ∧ result = value := by
  cases trace
  exact ⟨rfl, rfl⟩

theorem Trace.of_invoke {request : Call} {result : Reply request} (trace : Trace Answers (invoke request) events result) :
    events = [⟨request, result⟩] ∧ Answers request result := by
  cases trace with
  | call answered rest =>
    cases rest
    exact ⟨rfl, answered⟩

/-- A trace of two programs in a row is a trace of each. -/
theorem Trace.of_bind {program : Calls Call Reply α} {rest : α → Calls Call Reply β} {result : β}
    (trace : Trace Answers (program >>= rest) events result) :
    ∃ before value after, Trace Answers program before value ∧ Trace Answers (rest value) after result ∧
      events = before ++ after := by
  induction program generalizing events with
  | done value => exact ⟨[], value, events, .done, trace, rfl⟩
  | call request next ih =>
    cases trace with
    | @call _ _ reply events _ answered further =>
      obtain ⟨before, value, after, first, second, rfl⟩ := ih reply further
      exact ⟨_, value, after, .call answered first, second, rfl⟩

end

/-- The program makes only calls that are allowed and ends in a result of
the given kind, as long as the replies are among those it relies on. -/
def Upholds (Allowed : Call → Prop) (Relies : (request : Call) → Reply request → Prop) (Result : α → Prop) :
    Calls Call Reply α → Prop
  | done result => Result result
  | call request next => Allowed request ∧ ∀ reply, Relies request reply → (next reply).Upholds Allowed Relies Result

variable {Allowed : Call → Prop} {Relies : (request : Call) → Reply request → Prop}

theorem Upholds.invoke {request : Call} {Result : Reply request → Prop} (allowed : Allowed request)
    (relied : ∀ reply, Relies request reply → Result reply) : (invoke request).Upholds Allowed Relies Result :=
  ⟨allowed, relied⟩

theorem Upholds.bind {program : Calls Call Reply α} {rest : α → Calls Call Reply β} {Between : α → Prop}
    {Result : β → Prop} (first : program.Upholds Allowed Relies Between)
    (second : ∀ value, Between value → (rest value).Upholds Allowed Relies Result) :
    (program >>= rest).Upholds Allowed Relies Result := by
  induction program with
  | done value => exact second value first
  | call request next ih => exact ⟨first.1, fun reply relied => ih reply (first.2 reply relied)⟩

end Calls

end Library
