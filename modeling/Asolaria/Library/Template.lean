import Asolaria.Library.Delimited

namespace Library

variable {α : Type*} {front : List α} {literals fields fields' : List (List α)}

/-- A text with fields between fixed literals. -/
def fill (front : List α) : List (List α) → List (List α) → List α
  | literal :: literals, field :: fields => front ++ field ++ fill literal literals fields
  | _, _ => front

/-- Every field ends where its literal begins. -/
def Closed : List (List α) → List (List α) → Prop
  | literal :: literals, field :: fields => (∃ sep ∈ literal.head?, sep ∉ field) ∧ Closed literals fields
  | [], [] => True
  | _, _ => False

/-- A text begins as its first literal. -/
theorem fill_head {literal : List α} {sep : α} (begins : sep ∈ literal.head?) (literals fields : List (List α)) :
    fill literal literals fields = sep :: (fill literal literals fields).tail := by
  cases literal with
  | nil => cases begins
  | cons first literal =>
    obtain rfl := Option.some.inj begins
    cases literals with
    | nil => rfl
    | cons => cases fields <;> rfl

/-- Texts of one template are the same only with the same fields. -/
theorem fill_inj (left : Closed literals fields) (right : Closed literals fields')
    (same : fill front literals fields = fill front literals fields') : fields = fields' := by
  induction literals generalizing front fields fields' with
  | nil =>
    cases fields with
    | nil =>
      cases fields' with
      | nil => rfl
      | cons => exact right.elim
    | cons => exact left.elim
  | cons literal literals ih =>
    cases fields with
    | nil => exact left.elim
    | cons field fields =>
      cases fields' with
      | nil => exact right.elim
      | cons field' fields' =>
        obtain ⟨⟨sep, begins, plain⟩, left⟩ := left
        obtain ⟨⟨sep', begins', plain'⟩, right⟩ := right
        obtain rfl : sep = sep' := Option.some.inj (begins.symm.trans begins')
        rw [fill, fill, List.append_assoc, List.append_assoc, List.append_cancel_left_eq] at same
        rw [fill_head begins literals fields, fill_head begins literals fields'] at same
        obtain ⟨rfl, rest⟩ := cut_unique same plain plain'
        have behind : fill literal literals fields = fill literal literals fields' := by
          rw [fill_head begins literals fields, fill_head begins literals fields', rest]
        rw [ih left right behind]

end Library
