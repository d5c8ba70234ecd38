import Asolaria.Library.Guard
import Mathlib.Data.List.Infix

namespace Library

/-- The case tables of a version of Unicode. -/
structure UnicodeCase where
  lower : Char → List Char
  cased : Char → Bool
  caseIgnorable : Char → Bool
  ascii : ∀ c : Char, c.toNat < 128 → lower c = [c.toLower]

/-- Behind what is ignored the text goes on with a cased character. -/
def UnicodeCase.thenCased (unicode : UnicodeCase) (text : List Char) : Bool :=
  (text.dropWhile unicode.caseIgnorable).head?.any unicode.cased

/-- The lowercase of a text behind `before`, which stands in reverse order. A
capital sigma at the end of a word becomes a final one. -/
def lowercaseFrom (unicode : UnicodeCase) (before : List Char) : List Char → List Char
  | [] => []
  | c :: rest =>
    (if c = 'Σ' then [if unicode.thenCased before && !unicode.thenCased rest then 'ς' else 'σ']
      else unicode.lower c) ++ lowercaseFrom unicode (c :: before) rest

/-- `str::to_lowercase`. -/
def toLowercase (unicode : UnicodeCase) (text : List Char) : List Char := lowercaseFrom unicode [] text

/-- A final sigma counts as a plain one. -/
def plainSigma (c : Char) : Char := if c = 'ς' then 'σ' else c

variable {unicode : UnicodeCase} {text more pattern : List Char}

/-- Up to the form of the sigmas each character is lowered by itself. -/
theorem map_plainSigma_lowercaseFrom (before : List Char) :
    (lowercaseFrom unicode before text).map plainSigma =
      text.flatMap fun c => if c = 'Σ' then ['σ'] else (unicode.lower c).map plainSigma := by
  induction text generalizing before with
  | nil => rfl
  | cons c rest ih =>
    rw [lowercaseFrom, List.map_append, ih, List.flatMap_cons]
    congr 1
    by_cases sigma : c = 'Σ'
    · rw [if_pos sigma, if_pos sigma]
      split
      · rfl
      · rfl
    · rw [if_neg sigma, if_neg sigma]

theorem map_plainSigma_append : (toLowercase unicode (text ++ more)).map plainSigma =
    (toLowercase unicode text).map plainSigma ++ (toLowercase unicode more).map plainSigma := by
  unfold toLowercase
  rw [map_plainSigma_lowercaseFrom, map_plainSigma_lowercaseFrom, map_plainSigma_lowercaseFrom, List.flatMap_append]

section Patterns
variable (plain : ∀ c ∈ pattern, c ≠ 'σ' ∧ c ≠ 'ς')
include plain

theorem map_plainSigma_eq_iff : text.map plainSigma = pattern ↔ text = pattern := by
  have kept : pattern.map plainSigma = pattern :=
    (List.map_congr_left fun c member => if_neg (plain c member).2).trans (List.map_id pattern)
  refine ⟨fun same => ?_, fun same => by rw [same, kept]⟩
  rw [← same]
  refine (List.map_id text).symm.trans (List.map_congr_left fun c member => ?_)
  have image : plainSigma c ∈ pattern := same ▸ List.mem_map_of_mem member
  by_cases final : c = 'ς'
  · exact absurd (if_pos final) (plain _ image).1
  · exact (if_neg final).symm

/-- A pattern without sigmas occurs wherever it does so up to their form. -/
theorem infix_map_plainSigma : pattern <:+: text.map plainSigma ↔ pattern <:+: text := by
  refine ⟨fun occurs => ?_, fun occurs => ?_⟩
  · obtain ⟨front, rest, whole⟩ := occurs
    obtain ⟨left, right, rfl, cut, _⟩ := List.map_eq_append_iff.mp whole.symm
    obtain ⟨left, middle, rfl, _, image⟩ := List.map_eq_append_iff.mp cut
    exact ⟨left, right, by rw [(map_plainSigma_eq_iff plain).mp image]⟩
  · have image := occurs.map plainSigma
    rwa [(map_plainSigma_eq_iff plain).mpr rfl] at image

theorem prefix_map_plainSigma : pattern <+: text.map plainSigma ↔ pattern <+: text := by
  refine ⟨fun starts => ?_, fun starts => ?_⟩
  · obtain ⟨rest, whole⟩ := starts
    obtain ⟨left, right, rfl, image, _⟩ := List.map_eq_append_iff.mp whole.symm
    exact ⟨right, by rw [(map_plainSigma_eq_iff plain).mp image]⟩
  · have image := starts.map plainSigma
    rwa [(map_plainSigma_eq_iff plain).mpr rfl] at image

/-- What occurs in the lowercase of a text occurs in that of a longer one. -/
theorem toLowercase_infix_append (more : List Char) (occurs : pattern <:+: toLowercase unicode text) :
    pattern <:+: toLowercase unicode (text ++ more) := by
  rw [← infix_map_plainSigma plain] at occurs ⊢
  rw [map_plainSigma_append]
  exact occurs.trans (List.prefix_append _ _).isInfix

theorem toLowercase_prefix_append (more : List Char) (starts : pattern <+: toLowercase unicode text) :
    pattern <+: toLowercase unicode (text ++ more) := by
  rw [← prefix_map_plainSigma plain] at starts ⊢
  rw [map_plainSigma_append]
  exact starts.trans (List.prefix_append _ _)

end Patterns

theorem lowercaseFrom_ascii (ascii : ∀ c ∈ text, c.toNat < 128) (before : List Char) :
    lowercaseFrom unicode before text = text.map Char.toLower := by
  induction text generalizing before with
  | nil => rfl
  | cons c rest ih =>
    have low := ascii c List.mem_cons_self
    have other : c ≠ 'Σ' := by
      rintro rfl
      exact absurd low (by decide)
    rw [lowercaseFrom, if_neg other, unicode.ascii c low, ih fun d member => ascii d (List.mem_cons_of_mem c member)]
    rfl

/-- On ASCII every version of Unicode agrees. -/
theorem toLowercase_ascii (ascii : ∀ c ∈ text, c.toNat < 128) : toLowercase unicode text = text.map Char.toLower :=
  lowercaseFrom_ascii ascii []

end Library
