import Mathlib.Data.List.Infix

namespace Library

variable {α β : Type*} {code : α → List β} {l l' : List α}

/-- No code word begins another one. -/
def PrefixFree (code : α → List β) : Prop := ∀ a b, code a <+: code b → a = b

/-- A text of code words is cut in one way only. -/
theorem PrefixFree.flatMap_inj (free : PrefixFree code) (length : l.length = l'.length)
    (same : l.flatMap code = l'.flatMap code) : l = l' := by
  induction l generalizing l' with
  | nil => exact (List.length_eq_zero_iff.mp length.symm).symm
  | cons a l ih =>
    obtain ⟨b, l', rfl⟩ := List.exists_cons_of_length_eq_add_one length.symm
    rw [List.flatMap_cons, List.flatMap_cons] at same
    have left : code a <+: code b ++ l'.flatMap code := same ▸ List.prefix_append _ _
    have right : code b <+: code b ++ l'.flatMap code := List.prefix_append _ _
    have first : a = b := (List.prefix_or_prefix_of_prefix left right).elim (free a b) fun back => (free b a back).symm
    subst first
    rw [ih (Nat.succ.inj length) (List.append_cancel_left same)]

end Library
