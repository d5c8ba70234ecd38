import Asolaria.Library.Patterns

namespace Asolaria.CycleOrch
open Library
open scoped Computability

def isOpHaltVerb (verb : String) : Bool :=
  if verb == "OP-HALT" || verb == "EVT-HALT" then true
  else "EVT-".toList.isPrefixOf verb.toList && "-HALT-EMIT".toList.isSuffixOf verb.toList

/-- One of the characters `A-Z`, `0-9`, `_` and `-`. -/
def TokenChar (c : Char) : Prop := c.isUpper ∨ c.isDigit ∨ c = '_' ∨ c = '-'

/-- The verbs `EVT-<UPPER>-HALT-EMIT` of the narrow rule. -/
def narrowVerbs : Language Char :=
  {"EVT-".toList} * (symbol TokenChar * (symbol TokenChar)∗) * {"-HALT-EMIT".toList}

/-- The whitelist and the narrow rule. -/
def haltVerbs : Language Char := {"OP-HALT".toList} + {"EVT-HALT".toList} + narrowVerbs

/-- The verb begins and ends as the narrow rule has it. -/
def Framed (verb : List Char) : Prop := "EVT-".toList <+: verb ∧ "-HALT-EMIT".toList <:+ verb

/-- A token stands between the beginning and the end, which do not overlap. -/
def TokenBetween (verb : List Char) : Prop :=
  15 ≤ verb.length ∧ ∀ c ∈ (verb.drop 4).take (verb.length - 14), TokenChar c

section
variable {verb : List Char}

theorem mem_narrowVerbs : verb ∈ narrowVerbs ↔ Framed verb ∧ TokenBetween verb := by
  constructor
  · rintro ⟨_, ⟨_, rfl, token, upper, rfl⟩, _, rfl, rfl⟩
    obtain ⟨filled, all⟩ := mem_symbol_mul_kstar.mp upper
    obtain ⟨framed, _, between⟩ := eq_between_iff.mp (Eq.refl ("EVT-".toList ++ token ++ "-HALT-EMIT".toList))
    rw [between] at all
    refine ⟨framed, ?_, all⟩
    have positive := List.length_pos_of_ne_nil filled
    rw [List.length_append, List.length_append]
    change 15 ≤ 4 + token.length + 10
    omega
  · rintro ⟨framed, long, all⟩
    have split := eq_between_iff.mpr ⟨framed, Nat.le_trans (by decide) long, rfl⟩
    have filled : (verb.drop 4).take (verb.length - 14) ≠ [] := by
      rw [← List.length_pos_iff_ne_nil, List.length_take, List.length_drop]
      omega
    rw [split]
    exact Language.append_mem_mul (Language.append_mem_mul rfl (mem_symbol_mul_kstar.mpr ⟨filled, all⟩)) rfl

theorem mem_haltVerbs : verb ∈ haltVerbs ↔
    (verb = "OP-HALT".toList ∨ verb = "EVT-HALT".toList) ∨ Framed verb ∧ TokenBetween verb := by
  rw [← mem_narrowVerbs]
  rfl

theorem isOpHaltVerb_iff {verb : String} : isOpHaltVerb verb = true ↔
    (verb.toList = "OP-HALT".toList ∨ verb.toList = "EVT-HALT".toList) ∨ Framed verb.toList := by
  rw [String.toList_inj, String.toList_inj, isOpHaltVerb, Framed]
  by_cases listed : verb = "OP-HALT" ∨ verb = "EVT-HALT"
  · rw [if_pos (by simpa using listed)]
    exact iff_of_true rfl (.inl listed)
  · rw [if_neg (by simpa using listed), or_iff_right listed, Bool.and_eq_true, List.isPrefixOf_iff_prefix,
      List.isSuffixOf_iff_suffix]

end

/-- The verbs of the whitelist are not framed. -/
theorem not_framed_of_listed {verb : List Char} (listed : verb = "OP-HALT".toList ∨ verb = "EVT-HALT".toList) :
    ¬ Framed verb := by
  rintro ⟨_, ends⟩
  have short : verb.length ≤ 8 := by rcases listed with rfl | rfl <;> decide
  exact absurd (ends.length_le.trans short) (by decide)

/-- The prefix and the suffix say nothing about what is between them, and may
overlap: the rule is met where a framed verb has a token there. -/
theorem halt_verbs_iff (verb : String) : (isOpHaltVerb verb = true ↔ verb.toList ∈ haltVerbs) ↔
    (Framed verb.toList → TokenBetween verb.toList) := by
  rw [isOpHaltVerb_iff, mem_haltVerbs]
  by_cases listed : verb.toList = "OP-HALT".toList ∨ verb.toList = "EVT-HALT".toList
  · exact iff_of_true (iff_of_true (.inl listed) (.inl listed))
      fun framed => absurd framed (not_framed_of_listed listed)
  · rw [or_iff_right listed, or_iff_right listed]
    constructor
    · intro same framed
      exact (same.mp framed).2
    · intro between
      exact ⟨fun framed => ⟨framed, between framed⟩, And.left⟩

/-- The prefix and the suffix of this verb share a dash. -/
theorem halt_verb_overlaps : isOpHaltVerb "EVT-HALT-EMIT" = true ∧ "EVT-HALT-EMIT".toList ∉ haltVerbs := by
  refine ⟨by decide, ?_⟩
  intro listed
  rcases mem_haltVerbs.mp listed with exactly | ⟨_, long, _⟩
  · exact absurd exactly (by decide)
  · exact absurd long (by decide)

end Asolaria.CycleOrch
