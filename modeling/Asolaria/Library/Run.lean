import Mathlib.Data.List.Forall2

namespace Library

/-- One step of a labelled system, with the state on both sides retained. -/
structure Transition (State Label : Type*) where
  before : State
  label : Label
  after : State

/-- Finite executions of a labelled step relation. The history lists every
step from the first to the latest. -/
inductive Run {State Label : Type*} (Step : State → Label → State → Prop) (first : State) :
    List (Transition State Label) → State → Prop
  | start : Run Step first [] first
  | next {history current label after} : Run Step first history current → Step current label after →
      Run Step first (history ++ [⟨current, label, after⟩]) after

/-- What is observed of a history of one step. -/
theorem filterMap_single {α β : Type*} (observe : α → Option β) (a : α) : [a].filterMap observe = (observe a).toList := by
  cases found : observe a with
  | none => exact List.filterMap_cons_none found
  | some b => exact List.filterMap_cons_some found

/-- Whatever is observed inside a history was observed at one of its steps. -/
theorem filterMap_split {α β : Type*} {observe : α → Option β} {steps : List α} {b : β} {before after : List β}
    (recorded : steps.filterMap observe = before ++ b :: after) :
    ∃ earlier step later, steps = earlier ++ step :: later ∧ earlier.filterMap observe = before ∧
      observe step = some b ∧ later.filterMap observe = after := by
  obtain ⟨left, right, rfl, seen, rest⟩ := List.filterMap_eq_append_iff.mp recorded
  obtain ⟨quiet, step, later, rfl, silent, found, seenLater⟩ := List.filterMap_eq_cons_iff.mp rest
  refine ⟨left ++ quiet, step, later, by simp, ?_, found, seenLater⟩
  rw [List.filterMap_append, seen, List.filterMap_eq_nil_iff.mpr silent, List.append_nil]

/-- Lists that are related pair by pair end in a related pair. -/
theorem forall₂_concat {α β : Type*} {R : α → β → Prop} {xs : List α} {x : α} {ys : List β}
    (related : List.Forall₂ R (xs ++ [x]) ys) : ∃ before y, ys = before ++ [y] ∧ List.Forall₂ R xs before ∧ R x y := by
  induction xs generalizing ys with
  | nil =>
    obtain ⟨y, rest, same, none, rfl⟩ := List.forall₂_cons_left_iff.mp related
    cases none
    exact ⟨[], y, rfl, .nil, same⟩
  | cons first xs ih =>
    obtain ⟨y, rest, same, others, rfl⟩ := List.forall₂_cons_left_iff.mp related
    obtain ⟨before, last, rfl, front, paired⟩ := ih others
    exact ⟨y :: before, last, rfl, .cons same front, paired⟩

namespace Run

variable {State Label : Type*} {Step : State → Label → State → Prop} {first current : State}
  {history : List (Transition State Label)}

/-- Every recorded step splits a run: the part before it is a run, and the
recorded sides are the states actually reached there. -/
theorem split (run : Run Step first history current) {before after : List (Transition State Label)}
    {transition : Transition State Label} (recorded : history = before ++ transition :: after) :
    Run Step first before transition.before ∧ Step transition.before transition.label transition.after := by
  induction run generalizing after with
  | start => simp at recorded
  | @next history current label result previous step ih =>
    rcases List.eq_nil_or_concat after with rfl | ⟨rest, last, rfl⟩
    · obtain ⟨sameHistory, sameStep⟩ := List.append_inj' recorded rfl
      obtain rfl := List.singleton_inj.mp sameStep
      exact ⟨sameHistory ▸ previous, step⟩
    · rw [List.concat_eq_append, ← List.cons_append, ← List.append_assoc] at recorded
      exact ih (List.append_inj' recorded rfl).1

/-- The part behind a recorded step is a run from the state it led to. -/
theorem rest (run : Run Step first history current) {before after : List (Transition State Label)}
    {transition : Transition State Label} (recorded : history = before ++ transition :: after) :
    Run Step transition.after after current := by
  induction run generalizing after with
  | start => simp at recorded
  | @next history current label result previous step ih =>
    rcases List.eq_nil_or_concat after with rfl | ⟨rest, last, rfl⟩
    · obtain rfl := List.singleton_inj.mp (List.append_inj' recorded rfl).2
      exact .start
    · rw [List.concat_eq_append, ← List.cons_append, ← List.append_assoc] at recorded
      obtain ⟨sameHistory, sameStep⟩ := List.append_inj' recorded rfl
      obtain rfl := List.singleton_inj.mp sameStep
      rw [List.concat_eq_append]
      exact .next (ih sameHistory) step

theorem append {later : List (Transition State Label)} {final : State}
    (run : Run Step first history current) (rest : Run Step current later final) :
    Run Step first (history ++ later) final := by
  induction rest with
  | start => simpa using run
  | next _ step ih => rw [← List.append_assoc]; exact .next ih step

/-- What every step keeps holds in every state of a run. -/
theorem preserves {Inv : State → Prop} (keeps : ∀ {s label t}, Step s label t → Inv s → Inv t)
    (run : Run Step first history current) (holds : Inv first) : Inv current := by
  induction run with
  | start => exact holds
  | next _ step ih => exact keeps step ih

theorem step_of_mem (run : Run Step first history current) {transition : Transition State Label}
    (member : transition ∈ history) : Step transition.before transition.label transition.after := by
  obtain ⟨before, after, recorded⟩ := List.append_of_mem member
  exact (run.split recorded).2

end Run

/-- The history of a system whose steps are computed. -/
def trace {State Label : Type*} (perform : State → Label → State) : State → List Label → List (Transition State Label)
  | _, [] => []
  | s, label :: labels => ⟨s, label, perform s label⟩ :: trace perform (perform s label) labels

theorem run_trace {State Label : Type*} (perform : State → Label → State) (first : State) (labels : List Label) :
    Run (fun s label after => perform s label = after) first (trace perform first labels)
      (labels.foldl perform first) := by
  induction labels generalizing first with
  | nil => exact .start
  | cons label labels ih => exact Run.append (.next .start rfl) (ih (perform first label))

end Library
