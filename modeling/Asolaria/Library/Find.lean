import Asolaria.Library.Delimited

namespace Library

section
variable {α : Type*} {pattern text front : List α}

theorem dropLast_prefix_whole (front pattern text : List α) : front ++ pattern.dropLast <+: front ++ pattern ++ text := by
  rw [List.append_assoc, List.prefix_append_right_inj]
  exact (List.dropLast_prefix pattern).trans (List.prefix_append pattern text)

/-- What begins in front of a pattern ends in front of its last place. -/
theorem prefix_dropLast {a : α} (starts : pattern <+: a :: (front ++ pattern ++ text)) :
    pattern <+: a :: (front ++ pattern.dropLast) := by
  refine List.prefix_of_prefix_length_le starts (dropLast_prefix_whole (a :: front) pattern text) ?_
  rw [List.length_cons, List.length_append, List.length_dropLast]
  omega

/-- Entries that the pattern avoids do not matter in front of a text. -/
theorem infix_append_avoid (proper : pattern ≠ []) (avoids : ∀ a ∈ front, a ∉ pattern) :
    pattern <:+: front ++ text ↔ pattern <:+: text := by
  induction front with
  | nil => rfl
  | cons a front ih =>
    obtain ⟨here, rest⟩ := List.forall_mem_cons.mp avoids
    rw [← ih rest]
    constructor
    · intro occurs
      have beside : pattern <:+: [] ++ a :: (front ++ text) := occurs
      rcases infix_beside beside here with empty | later
      · exact absurd (List.infix_nil.mp empty) proper
      · exact later
    · exact fun occurs => List.infix_cons occurs

end

variable {α : Type*} [DecidableEq α] {pattern text front : List α}

/-- The first place where the pattern stands. -/
def find (pattern : List α) : List α → Option Nat
  | [] => if pattern.isEmpty then some 0 else none
  | a :: rest => if pattern.isPrefixOf (a :: rest) then some 0 else (find pattern rest).map (· + 1)

/-- A pattern is found where it stands unless it stands earlier. -/
theorem find_append (proper : pattern ≠ []) (first : ¬ pattern <:+: front ++ pattern.dropLast) (text : List α) :
    find pattern (front ++ pattern ++ text) = some front.length := by
  induction front with
  | nil =>
    obtain ⟨a, rest, rfl⟩ := List.exists_cons_of_ne_nil proper
    have starts : (a :: rest).isPrefixOf (a :: (rest ++ text)) = true := List.isPrefixOf_iff_prefix.mpr ⟨text, rfl⟩
    rw [List.nil_append, List.cons_append, find, if_pos starts]
    rfl
  | cons a front ih =>
    have later : ¬ pattern <:+: front ++ pattern.dropLast := fun occurs => first (List.infix_cons occurs)
    have notHere : ¬ pattern <+: a :: (front ++ pattern ++ text) := fun starts => first (prefix_dropLast starts).isInfix
    rw [List.cons_append, List.cons_append, find, if_neg (by rwa [List.isPrefixOf_iff_prefix]), ih later]
    rfl

theorem find_earlier (proper : pattern ≠ []) (earlier : pattern <:+: front ++ pattern.dropLast) (text : List α) :
    ∃ i < front.length, find pattern (front ++ pattern ++ text) = some i := by
  induction front with
  | nil =>
    have bound := earlier.length_le
    have filled := List.length_pos_iff.mpr proper
    rw [List.nil_append, List.length_dropLast] at bound
    omega
  | cons a front ih =>
    rw [List.cons_append, List.cons_append, find]
    split
    · exact ⟨0, Nat.succ_pos _, rfl⟩
    · next notHere =>
      rw [List.isPrefixOf_iff_prefix] at notHere
      rcases List.infix_cons_iff.mp earlier with starts | later
      · exact absurd (starts.trans (dropLast_prefix_whole (a :: front) pattern text)) notHere
      · obtain ⟨i, inside, found⟩ := ih later
        exact ⟨i + 1, Nat.succ_lt_succ inside, by rw [found]; rfl⟩

end Library
