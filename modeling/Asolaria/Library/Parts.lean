import Asolaria.Library.Run

namespace Library

variable {State Label Call : Type*} {Step : State → Label → State → Prop} {first current : State}
  {history : List (Transition State Label)}

/-- The steps of a history, without the states in between. -/
def labels (history : List (Transition State Label)) : List Label := history.map (·.label)

theorem labels_next (step : Transition State Label) : labels (history ++ [step]) = labels history ++ [step.label] :=
  List.map_append

/-- A part of a system. Its own steps can be taken where the rest of the state
is forgotten, and no other step shows in it. -/
structure Part (Step : State → Label → State → Prop) where
  view : State → State
  own : Label → Bool
  acts : ∀ {s label t}, Step s label t → own label = true → Step (view s) label (view t)
  rests : ∀ {s label t}, Step s label t → own label = false → view t = view s

/-- The own steps of a part of any run are a run by themselves. -/
theorem Part.run (part : Part Step) (run : Run Step first history current) :
    ∃ alone, Run Step (part.view first) alone (part.view current) ∧ labels alone = (labels history).filter part.own := by
  induction run with
  | start => exact ⟨[], .start, rfl⟩
  | @next history current label after _ step ih =>
    obtain ⟨alone, run, same⟩ := ih
    rw [labels_next, List.filter_append, ← same]
    cases mine : part.own label with
    | true =>
      refine ⟨_, run.next (part.acts step mine), ?_⟩
      rw [labels_next, List.filter_cons_of_pos mine, List.filter_nil]
    | false =>
      refine ⟨alone, (part.rests step mine).symm ▸ run, ?_⟩
      rw [List.filter_cons_of_neg (Bool.eq_false_iff.mp mine), List.filter_nil, List.append_nil]

/-- What is called decides what is replied and what is left behind. -/
def Deterministic (Step : State → Label → State → Prop) (call : Label → Call) : Prop :=
  ∀ s label t label' t', Step s label t → Step s label' t' → call label = call label' → label = label' ∧ t = t'

theorem Run.determined {call : Label → Call} (determined : Deterministic Step call)
    {history' : List (Transition State Label)} {current' : State} (left : Run Step first history current)
    (right : Run Step first history' current') (same : (labels history).map call = (labels history').map call) :
    labels history = labels history' ∧ current = current' := by
  induction left generalizing history' current' with
  | start =>
    cases right with
    | start => exact ⟨rfl, rfl⟩
    | next =>
      rw [labels_next, List.map_append] at same
      simp [labels] at same
  | next _ step ih =>
    cases right with
    | start =>
      rw [labels_next, List.map_append] at same
      simp [labels] at same
    | next right' step' =>
      rw [labels_next, labels_next, List.map_append, List.map_append] at same
      obtain ⟨before, last⟩ := List.append_inj' same rfl
      obtain ⟨labels, rfl⟩ := ih right' before
      obtain ⟨rfl, rfl⟩ := determined _ _ _ _ _ step step' (List.singleton_inj.mp last)
      rw [labels_next, labels_next, labels]
      exact ⟨rfl, rfl⟩

/-- The replies that a part gives depend on its own calls only, whatever else
the system is asked in between. -/
theorem Part.noninterference (part : Part Step) {call : Label → Call} (determined : Deterministic Step call)
    {history' : List (Transition State Label)} {current' : State} (left : Run Step first history current)
    (right : Run Step first history' current')
    (same : ((labels history).filter part.own).map call = ((labels history').filter part.own).map call) :
    (labels history).filter part.own = (labels history').filter part.own ∧ part.view current = part.view current' := by
  obtain ⟨alone, run, shown⟩ := part.run left
  obtain ⟨alone', run', shown'⟩ := part.run right
  rw [← shown, ← shown'] at same ⊢
  exact run.determined determined run' same

end Library
