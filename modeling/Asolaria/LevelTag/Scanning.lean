import Asolaria.LevelTag.Levels

namespace Asolaria.LevelTag
open Library

/-- The inner loop of `contains_ci`, which counts the matching bytes at `i`. An
index out of range would be a panic. -/
def innerLoop (h n : List UInt8) (i j : Nat) : Option Nat :=
  if j < n.length then do
    let found ← h[i + j]?
    let wanted ← n[j]?
    if asciiLower found = wanted then innerLoop h n i (j + 1) else return j
  else return j
termination_by n.length - j

def outerLoop (h n : List UInt8) (i : Nat) : Option Bool :=
  if i + n.length ≤ h.length then do
    let j ← innerLoop h n i 0
    if j = n.length then return true else outerLoop h n (i + 1)
  else return false
termination_by h.length + 1 - i

/-- `contains_ci` with its two loops over indices. -/
def containsCiIndexed (haystack needleLower : String) : Option Bool :=
  let h := utf8 haystack
  let n := utf8 needleLower
  if n.isEmpty || n.length > h.length then return false else outerLoop h n 0

/-- The loop over a table of fragments, up to the first that is found. -/
def anyFragment (text : String) : List String → Option Bool
  | [] => return false
  | fragment :: rest => do
    if ← containsCiIndexed text fragment then return true else anyFragment text rest

def isPiiIndexed (path content : String) : Option Bool := do
  if ← anyFragment path piiPathFragments then return true
  if hasDigitRun content 14 then return true
  anyFragment content piiContentFragments

def isPublicCanonIndexed (path : String) : Option Bool := anyFragment path publicCanonFragments

variable {h n : List UInt8}

/-- The inner loop counts up to the needle's length exactly where the rest of
the needle matches. -/
theorem innerLoop_eq {i j : Nat} (inside : i + n.length ≤ h.length) (bound : j ≤ n.length) :
    ∃ k, innerLoop h n i j = some k ∧ (k = n.length ↔ matchesAt (h.drop (i + j)) (n.drop j) = true) := by
  induction left : n.length - j generalizing j with
  | zero =>
    have last : j = n.length := by omega
    rw [innerLoop, if_neg (by omega)]
    refine ⟨j, rfl, ?_⟩
    rw [List.drop_of_length_le (by omega : n.length ≤ j), matchesAt]
    exact iff_of_true last rfl
  | succ left ih =>
    have below : j < n.length := by omega
    have here : i + j < h.length := by omega
    rw [innerLoop, if_pos below, List.getElem?_eq_getElem here, List.getElem?_eq_getElem below,
      List.drop_eq_getElem_cons here, List.drop_eq_getElem_cons below, matchesAt, Bool.and_eq_true, beq_iff_eq]
    by_cases same : asciiLower h[i + j] = n[j]
    · obtain ⟨k, counted, reaches⟩ := ih (j := j + 1) (by omega) (by omega)
      refine ⟨k, by simp [same, counted], ?_⟩
      rw [reaches, ← Nat.add_assoc]
      exact (and_iff_right same).symm
    · refine ⟨j, by simp [same], ?_⟩
      exact iff_of_false (by omega) fun matched => same matched.1

theorem outerLoop_eq (proper : n ≠ []) (i : Nat) : outerLoop h n i = some (matchesFrom n (h.drop i)) := by
  induction left : h.length + 1 - i generalizing i with
  | zero =>
    rw [outerLoop, if_neg (by omega), List.drop_of_length_le (by omega)]
    rfl
  | succ left ih =>
    have positive := List.length_pos_of_ne_nil proper
    by_cases fits : i + n.length ≤ h.length
    · have here : i < h.length := by omega
      have step : matchesFrom n (h.drop i) = (matchesAt (h.drop i) n || matchesFrom n (h.drop (i + 1))) := by
        rw [List.drop_eq_getElem_cons here, matchesFrom, if_neg]
        rw [← List.drop_eq_getElem_cons here, List.length_drop]
        omega
      obtain ⟨k, counted, reaches⟩ := innerLoop_eq (j := 0) fits (Nat.zero_le _)
      rw [Nat.add_zero, List.drop_zero] at reaches
      rw [outerLoop, if_pos fits, counted, step]
      by_cases matched : matchesAt (h.drop i) n = true
      · rw [matched]
        exact if_pos (reaches.mpr matched)
      · rw [Bool.not_eq_true] at matched
        have other : k ≠ n.length := fun same => absurd (reaches.mp same) (by simp [matched])
        rw [matched, Bool.false_or, ← ih (i + 1) (by omega)]
        exact if_neg other
    · have short : matchesFrom n (h.drop i) = false := by
        cases rest : h.drop i with
        | nil => rfl
        | cons first rest' =>
          have size := congrArg List.length rest
          rw [List.length_drop] at size
          rw [matchesFrom, if_pos (by omega)]
      rw [outerLoop, if_neg fits, short]
      rfl

/-- No index of the two loops is out of range. -/
theorem containsCiIndexed_eq (haystack needle : String) :
    containsCiIndexed haystack needle = some (containsCi haystack needle) := by
  unfold containsCiIndexed containsCi
  by_cases trivial : ((utf8 needle).isEmpty || decide ((utf8 needle).length > (utf8 haystack).length)) = true
  · rw [if_pos trivial, if_pos trivial]
    rfl
  · have proper : utf8 needle ≠ [] := by
      intro empty
      simp [empty] at trivial
    rw [if_neg trivial, if_neg trivial, outerLoop_eq proper, List.drop_zero]

theorem anyFragment_eq (text : String) (fragments : List String) :
    anyFragment text fragments = some (fragments.any (containsCi text)) := by
  induction fragments with
  | nil => rfl
  | cons fragment rest ih =>
    rw [anyFragment, containsCiIndexed_eq, ih, List.any_cons]
    cases containsCi text fragment with
    | true => rfl
    | false => rfl

theorem isPiiIndexed_eq (path content : String) : isPiiIndexed path content = some (isPii path content) := by
  rw [isPiiIndexed, isPii, anyFragment_eq, anyFragment_eq]
  cases piiPathFragments.any (containsCi path) with
  | true => rfl
  | false =>
    cases hasDigitRun content 14 with
    | true => rfl
    | false => rfl

/-- What the tagger answers, with every index of its loops in range. -/
theorem tagger_finds_fragments (path content : String) :
    (∃ pii, isPiiIndexed path content = some pii ∧ (pii = true ↔
      (∃ fragment ∈ piiPathFragments, utf8 fragment <:+: (utf8 path).map asciiLower) ∨
      (∃ digits, digits <:+: utf8 content ∧ digits.length = 14 ∧ ∀ b ∈ digits, isAsciiDigit b = true) ∨
      ∃ fragment ∈ piiContentFragments, utf8 fragment <:+: (utf8 content).map asciiLower)) ∧
    ∃ canon, isPublicCanonIndexed path = some canon ∧ (canon = true ↔
      ∃ fragment ∈ publicCanonFragments, utf8 fragment <:+: (utf8 path).map asciiLower) := by
  refine ⟨⟨_, isPiiIndexed_eq path content, isPii_iff⟩, _, anyFragment_eq path publicCanonFragments,
    any_containsCi_iff publicCanon_proper⟩

end Asolaria.LevelTag
