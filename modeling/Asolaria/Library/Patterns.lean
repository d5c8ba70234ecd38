import Mathlib.Computability.Language

namespace Library
open scoped Computability

variable {α : Type*} {p : α → Prop} {word front middle back : List α}

/-- The words of a single symbol of the class. -/
def symbol (p : α → Prop) : Language α := {word | ∃ a, p a ∧ word = [a]}

theorem mem_symbol : word ∈ symbol p ↔ ∃ a, p a ∧ word = [a] := Iff.rfl

theorem mem_kstar_symbol : word ∈ (symbol p)∗ ↔ ∀ a ∈ word, p a := by
  rw [Language.mem_kstar]
  constructor
  · rintro ⟨symbols, rfl, each⟩ a member
    obtain ⟨one, listed, inside⟩ := List.mem_flatten.mp member
    obtain ⟨b, class_b, rfl⟩ := each one listed
    rw [List.mem_singleton.mp inside]
    exact class_b
  · intro all
    refine ⟨word.map fun a => [a], (List.flatMap_singleton' word).symm, ?_⟩
    intro one listed
    obtain ⟨a, member, rfl⟩ := List.mem_map.mp listed
    exact ⟨a, all a member, rfl⟩

/-- A class of symbols repeated at least once. -/
theorem mem_symbol_mul_kstar : word ∈ symbol p * (symbol p)∗ ↔ word ≠ [] ∧ ∀ a ∈ word, p a := by
  rw [Language.mem_mul]
  constructor
  · rintro ⟨_, ⟨a, class_a, rfl⟩, rest, repeated, rfl⟩
    exact ⟨List.cons_ne_nil _ _, List.forall_mem_cons.mpr ⟨class_a, mem_kstar_symbol.mp repeated⟩⟩
  · rintro ⟨nonempty, all⟩
    obtain ⟨a, rest, rfl⟩ := List.exists_cons_of_ne_nil nonempty
    obtain ⟨first, others⟩ := List.forall_mem_cons.mp all
    exact ⟨[a], ⟨a, first, rfl⟩, rest, mem_kstar_symbol.mpr others, rfl⟩

/-- A word between two fixed ones that do not overlap. -/
theorem eq_between_iff : word = front ++ middle ++ back ↔
    (front <+: word ∧ back <:+ word) ∧ front.length + back.length ≤ word.length ∧
      middle = (word.drop front.length).take (word.length - (front.length + back.length)) := by
  constructor
  · rintro rfl
    refine ⟨⟨⟨middle ++ back, (List.append_assoc _ _ _).symm⟩, ⟨front ++ middle, rfl⟩⟩, ?_, ?_⟩
    · simp only [List.length_append]
      omega
    · have length : (front ++ middle ++ back).length - (front.length + back.length) = middle.length := by
        simp only [List.length_append]
        omega
      rw [length, List.append_assoc, List.drop_left, List.take_left]
  · rintro ⟨⟨begins, ends⟩, apart, rfl⟩
    have first : word.take front.length = front := (List.prefix_iff_eq_take.mp begins).symm
    have last : word.drop (word.length - back.length) = back := (List.suffix_iff_eq_drop.mp ends).symm
    have behind : word.length - back.length = front.length + (word.length - (front.length + back.length)) := by omega
    rw [behind, ← List.drop_drop] at last
    have inner := List.take_append_drop (word.length - (front.length + back.length)) (word.drop front.length)
    rw [last] at inner
    calc word = word.take front.length ++ word.drop front.length := (List.take_append_drop _ _).symm
      _ = front ++ (_ ++ back) := by rw [first, inner]
      _ = _ := (List.append_assoc _ _ _).symm

end Library
