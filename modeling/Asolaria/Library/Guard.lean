import Mathlib.Logic.Basic

namespace Library

variable {ε α : Type*} {condition : Prop} [Decidable condition] {error : ε} {rest : Except ε α} {value : α}

/-- A failing guard in front of a computation: success means the guard did
not fire and the rest succeeded. -/
theorem guard_ok_iff :
    (if condition then .error error else rest) = .ok value ↔ ¬ condition ∧ rest = .ok value := by
  by_cases fires : condition
  · simp [fires]
  · simp [fires]

/-- A guard that returns at once, in front of what is known to return. -/
theorem ite_eq_some {early late : α} {rest : Option α} (returns : ¬ condition → rest = some late) :
    (if condition then some early else rest) = some (if condition then early else late) := by
  by_cases fires : condition
  · rw [if_pos fires, if_pos fires]
  · rw [if_neg fires, if_neg fires, returns fires]

theorem exists_error {reply : Except ε α} (fails : (!reply.isOk) = true) : ∃ error, reply = .error error := by
  cases reply with
  | error error => exact ⟨error, rfl⟩
  | ok => cases fails

/-- A property of the members of a list, from a run over the list. -/
theorem forall_mem_of_all {p : α → Prop} [DecidablePred p] {list : List α} (all : list.all fun a => decide (p a)) :
    ∀ a ∈ list, p a :=
  fun a member => of_decide_eq_true (List.all_eq_true.mp all a member)

end Library
