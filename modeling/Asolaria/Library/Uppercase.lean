import Asolaria.Library.Delimited

namespace Library

/-- The uppercase table of a version of Unicode. -/
structure UnicodeUpper where
  upper : Char → List Char
  ascii : ∀ c : Char, c.toNat < 128 → upper c = [c.toUpper]

/-- `str::to_uppercase`, which looks at no more than one character at a time. -/
def toUppercase (unicode : UnicodeUpper) (text : List Char) : List Char := text.flatMap unicode.upper

variable {unicode : UnicodeUpper} {text more : List Char}

theorem toUppercase_append : toUppercase unicode (text ++ more) = toUppercase unicode text ++ toUppercase unicode more :=
  List.flatMap_append

/-- Words joined by a mark without case are raised one by one. -/
theorem toUppercase_intercalate {mark : Char} (ascii : mark.toNat < 128) (caseless : mark.toUpper = mark)
    (words : List (List Char)) :
    toUppercase unicode ([mark].intercalate words) = [mark].intercalate (words.map (toUppercase unicode)) := by
  have kept : toUppercase unicode [mark] = [mark] := by
    rw [toUppercase, List.flatMap_cons, unicode.ascii mark ascii, caseless]
    rfl
  induction words with
  | nil => rfl
  | cons word words ih =>
    cases words with
    | nil => rw [List.map_singleton, List.intercalate_singleton, List.intercalate_singleton]
    | cons next words =>
      rw [List.intercalate_cons_cons, toUppercase_append, toUppercase_append, kept, ih]
      exact List.intercalate_cons_cons.symm

section Marks
variable {α : Type*} {pattern : List α} {mark : α}

/-- A pattern without the mark stands in joined words exactly if it stands in
one of them. -/
theorem infix_intercalate_iff (proper : pattern ≠ []) (missing : mark ∉ pattern) (words : List (List α)) :
    pattern <:+: [mark].intercalate words ↔ ∃ word ∈ words, pattern <:+: word := by
  constructor
  · intro occurs
    induction words with
    | nil => exact absurd (List.infix_nil.mp occurs) proper
    | cons word words ih =>
      cases words with
      | nil =>
        rw [List.intercalate_singleton] at occurs
        exact ⟨word, List.mem_singleton_self word, occurs⟩
      | cons next words =>
        rw [List.intercalate_cons_cons, List.append_assoc, List.singleton_append] at occurs
        rcases infix_beside occurs missing with here | later
        · exact ⟨word, List.mem_cons_self, here⟩
        · obtain ⟨found, member, stands⟩ := ih later
          exact ⟨found, List.mem_cons_of_mem word member, stands⟩
  · rintro ⟨word, member, stands⟩
    exact stands.trans (infix_intercalate [mark] member)

end Marks

end Library
