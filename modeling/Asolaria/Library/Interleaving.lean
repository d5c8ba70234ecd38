import Asolaria.Library.Run
import Mathlib.Logic.Function.Basic

namespace Library

/-- Callers that share one state, each with a program counter of its own. -/
structure Threads (ι Shared Local : Type*) where
  shared : Shared
  locals : ι → Local

variable {ι Shared Local Label : Type*}

/-- Every caller but one stands at a location of the given kind. -/
def AllBut (owner : ι) (kind : Local → Prop) (locals : ι → Local) : Prop := ∀ other, other ≠ owner → kind (locals other)

section
variable {kind : Local → Prop} {locals : ι → Local} {owner i : ι}

theorem AllBut.of_all (all : ∀ i, kind (locals i)) (owner : ι) : AllBut owner kind locals := fun other _ => all other

theorem AllBut.owner_eq (but : AllBut owner kind locals) (inside : ¬ kind (locals i)) : i = owner := by
  by_contra other
  exact inside (but i other)

end

variable [DecidableEq ι] {kind : Local → Prop} {locals : ι → Local} {owner : ι} {location : Local}

def Threads.place (threads : Threads ι Shared Local) (i : ι) (shared : Shared) (location : Local) :
    Threads ι Shared Local := ⟨shared, Function.update threads.locals i location⟩

/-- An interleaving picks any caller and lets it take one step of its own. -/
inductive InterleavedStep (Act : Shared → Local → Label → Shared → Local → Prop) :
    Threads ι Shared Local → ι × Label → Threads ι Shared Local → Prop
  | act {threads i label shared location} : Act threads.shared (threads.locals i) label shared location →
      InterleavedStep Act threads (i, label) (threads.place i shared location)

/-- What happens to the shared state is the doing of one caller. -/
theorem InterleavedStep.act_shared {Act : Shared → Local → Label → Shared → Local → Prop}
    {threads after : Threads ι Shared Local} {label : ι × Label} (step : InterleavedStep Act threads label after) :
    Act threads.shared (threads.locals label.1) label.2 after.shared (after.locals label.1) := by
  cases step with
  | @act i label shared location moved =>
    show Act threads.shared (threads.locals i) label shared (Function.update threads.locals i location i)
    rw [Function.update_self]
    exact moved

/-- One caller on its own, with nobody else moving. -/
def SoloStep (Act : Shared → Local → Label → Shared → Local → Prop) (s : Shared × Local) (label : Label)
    (t : Shared × Local) : Prop := Act s.1 s.2 label t.1 t.2

/-- What a caller can do on its own it can do in any company, and nobody
else is moved by it. -/
theorem Run.interleaved {Act : Shared → Local → Label → Shared → Local → Prop} {shared : Shared}
    {locals : ι → Local} {i : ι} {history : List (Transition (Shared × Local) Label)} {final : Shared × Local}
    (run : Run (SoloStep Act) (shared, locals i) history final) :
    ∃ interleaved, Run (InterleavedStep Act) ⟨shared, locals⟩ interleaved ⟨final.1, Function.update locals i final.2⟩ ∧
      interleaved.map (·.label) = history.map fun transition => (i, transition.label) := by
  induction run with
  | start =>
    refine ⟨[], ?_, rfl⟩
    simpa only [Function.update_eq_self] using Run.start
  | @next history current label after _ step ih =>
    obtain ⟨interleaved, run, labels⟩ := ih
    have here : Function.update locals i current.2 i = current.2 := Function.update_self ..
    have moved : InterleavedStep Act ⟨current.1, Function.update locals i current.2⟩ (i, label)
        (Threads.place ⟨current.1, Function.update locals i current.2⟩ i after.1 after.2) :=
      .act (by show Act current.1 (Function.update locals i current.2 i) label after.1 after.2; rw [here]; exact step)
    simp only [Threads.place, Function.update_idem] at moved
    exact ⟨_, .next run moved, by rw [List.map_append, List.map_append, labels]; rfl⟩

/-- Whoever stands somewhere has moved there, or has stood there before. -/
theorem Threads.place_cases {threads : Threads ι Shared Local} {i j : ι} {shared : Shared} {there : Local}
    (stands : (threads.place i shared location).locals j = there) :
    (j = i ∧ location = there) ∨ (j ≠ i ∧ threads.locals j = there) := by
  change Function.update threads.locals i location j = there at stands
  by_cases same : j = i
  · rw [same, Function.update_self] at stands
    exact .inl ⟨same, stands⟩
  · rw [Function.update_of_ne same] at stands
    exact .inr ⟨same, stands⟩

theorem AllBut.update_owner (but : AllBut owner kind locals) (location : Local) :
    AllBut owner kind (Function.update locals owner location) := by
  intro other different
  rw [Function.update_of_ne different]
  exact but other different

theorem AllBut.update_kind (but : AllBut owner kind locals) (i : ι) (stays : kind location) :
    AllBut owner kind (Function.update locals i location) := by
  intro other different
  by_cases same : other = i
  · rw [same, Function.update_self]
    exact stays
  · rw [Function.update_of_ne same]
    exact but other different

theorem AllBut.update_all (but : AllBut owner kind locals) (stays : kind location) :
    ∀ i, kind (Function.update locals owner location i) := by
  intro i
  by_cases same : i = owner
  · rw [same, Function.update_self]
    exact stays
  · rw [Function.update_of_ne same]
    exact but i same

end Library
