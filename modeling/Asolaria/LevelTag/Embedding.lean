import Asolaria.LevelTag.Levels
import Asolaria.Library.Utf8

namespace Asolaria.LevelTag
open Library

/-- The texts differ in nothing but the case of ASCII letters. -/
def SameButCase (text other : String) : Prop := text.toList.map Char.toLower = other.toList.map Char.toLower

section Case

theorem asciiLower_wide {b : UInt8} (wide : 128 ≤ b) : asciiLower b = b := by
  unfold asciiLower
  rw [if_neg]
  rw [Bool.and_eq_true, decide_eq_true_eq, decide_eq_true_eq]
  exact fun upper => absurd (UInt8.le_trans wide upper.2) (by decide)

theorem toLower_high {c : Char} (high : 128 ≤ c.toNat) : c.toLower = c := by
  unfold Char.toLower
  rw [dif_neg]
  intro upper
  have below : c.val.toNat ≤ 90 := UInt32.le_iff_toNat_le.mp upper.2
  change 128 ≤ c.val.toNat at high
  omega

/-- Lowering the bytes is lowering the characters: only the one-byte ones have
bytes below 128. -/
theorem map_asciiLower_encode (c : Char) :
    (String.utf8EncodeChar c).map asciiLower = String.utf8EncodeChar c.toLower := by
  by_cases low : c.toNat < 128
  · have checked : ∀ n < 128, (String.utf8EncodeChar (Char.ofNat n)).map asciiLower =
        String.utf8EncodeChar (Char.ofNat n).toLower := by decide +kernel
    have same := checked c.toNat low
    rwa [Char.ofNat_toNat] at same
  · obtain ⟨lead, rest, encoded, _, wide⟩ := utf8EncodeChar_wide (Nat.not_lt.mp low)
    rw [toLower_high (Nat.not_lt.mp low), encoded]
    calc (lead :: rest).map asciiLower = (lead :: rest).map id :=
          List.map_congr_left fun b member => asciiLower_wide (wide b member)
      _ = lead :: rest := List.map_id _

theorem map_asciiLower_utf8 (text : String) :
    (utf8 text).map asciiLower = (text.toList.map Char.toLower).flatMap String.utf8EncodeChar := by
  rw [utf8_eq_flatMap, List.map_flatMap, List.flatMap_map]
  exact List.flatMap_congr fun c _ => map_asciiLower_encode c

theorem SameButCase.map_asciiLower {text other : String} (same : SameButCase text other) :
    (utf8 text).map asciiLower = (utf8 other).map asciiLower := by
  rw [map_asciiLower_utf8, map_asciiLower_utf8, same]

theorem isAsciiDigit_asciiLower (b : UInt8) : isAsciiDigit (asciiLower b) = isAsciiDigit b := by
  have checked : ∀ n < 256, isAsciiDigit (asciiLower (UInt8.ofNat n)) = isAsciiDigit (UInt8.ofNat n) := by
    decide +kernel
  have same := checked b.toNat b.toNat_lt
  rwa [UInt8.ofNat_toNat] at same

theorem digitRunFrom_map_asciiLower (minLen run : Nat) (bytes : List UInt8) :
    digitRunFrom minLen run (bytes.map asciiLower) = digitRunFrom minLen run bytes := by
  induction bytes generalizing run with
  | nil => rfl
  | cons b bs ih => rw [List.map_cons, digitRunFrom, digitRunFrom, isAsciiDigit_asciiLower, ih, ih]

end Case

section Tables
variable {text other : String} {fragments : List String} (proper : ∀ fragment ∈ fragments, utf8 fragment ≠ [])
include proper

theorem any_containsCi_grow (inside : text.toList <:+: other.toList)
    (found : fragments.any (containsCi text) = true) : fragments.any (containsCi other) = true := by
  obtain ⟨fragment, member, occurs⟩ := (any_containsCi_iff proper).mp found
  have further : (utf8 text).map asciiLower <:+: (utf8 other).map asciiLower := (infix_utf8 inside).map asciiLower
  exact (any_containsCi_iff proper).mpr ⟨fragment, member, occurs.trans further⟩

theorem any_containsCi_case (same : SameButCase text other) :
    fragments.any (containsCi text) = fragments.any (containsCi other) := by
  rw [Bool.eq_iff_iff, any_containsCi_iff proper, any_containsCi_iff proper, same.map_asciiLower]

end Tables

variable {path path' content content' : String}

theorem hasDigitRun_grow {s t : String} {minLen : Nat} (positive : 0 < minLen) (inside : s.toList <:+: t.toList)
    (found : hasDigitRun s minLen = true) : hasDigitRun t minLen = true := by
  obtain ⟨digits, occurs, size, all⟩ := (hasDigitRun_iff positive).mp found
  exact (hasDigitRun_iff positive).mpr ⟨digits, occurs.trans (infix_utf8 inside), size, all⟩

theorem hasDigitRun_case {s t : String} (same : SameButCase s t) (minLen : Nat) :
    hasDigitRun s minLen = hasDigitRun t minLen := by
  rw [hasDigitRun, hasDigitRun, ← digitRunFrom_map_asciiLower, same.map_asciiLower, digitRunFrom_map_asciiLower]

/-- Whatever makes a row PII is still there in a longer path and content. -/
theorem isPii_grow (paths : path.toList <:+: path'.toList) (contents : content.toList <:+: content'.toList)
    (pii : isPii path content = true) : isPii path' content' = true := by
  rw [isPii, Bool.or_eq_true, Bool.or_eq_true] at pii ⊢
  rcases pii with (inPath | digits) | inContent
  · exact .inl (.inl (any_containsCi_grow piiPath_proper paths inPath))
  · exact .inl (.inr (hasDigitRun_grow (by decide) contents digits))
  · exact .inr (any_containsCi_grow piiContent_proper contents inContent)

theorem isPii_case (paths : SameButCase path path') (contents : SameButCase content content') :
    isPii path content = isPii path' content' := by
  rw [isPii, isPii, any_containsCi_case piiPath_proper paths, hasDigitRun_case contents,
    any_containsCi_case piiContent_proper contents]

/-- A private row stays private inside any longer one, and no level depends on
the case of an ASCII letter. -/
theorem assignLevel_embedding :
    (∀ path content path' content', path.toList <:+: path'.toList → content.toList <:+: content'.toList →
      assignLevel path content = levelOwnerPrivate → assignLevel path' content' = levelOwnerPrivate) ∧
    ∀ path content path' content', SameButCase path path' → SameButCase content content' →
      assignLevel path' content' = assignLevel path content := by
  refine ⟨fun path content path' content' paths contents level => ?_,
    fun path content path' content' paths contents => ?_⟩
  · rw [assignLevel_eq_ownerPrivate] at level ⊢
    exact isPii_grow paths contents level
  · rw [assignLevel, assignLevel, isPii_case paths contents, isPublicCanon, isPublicCanon,
      any_containsCi_case publicCanon_proper paths]

theorem assignLevel_embedding_vault :
    assignLevel "a/Vault/b" "x1" = levelOwnerPrivate ∧ assignLevel "README.md" "" = assignLevel "readme.MD" "" :=
  ⟨assignLevel_embedding.1 "Vault" "" "a/Vault/b" "x1" ⟨['a', '/'], ['/', 'b'], by decide⟩ ⟨[], ['x', '1'], by decide⟩
      (by decide),
    assignLevel_embedding.2 "readme.MD" "" "README.md" "" (by unfold SameButCase; decide) rfl⟩

end Asolaria.LevelTag
