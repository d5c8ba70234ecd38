import Asolaria.SignGate.Gate
import Asolaria.Library.Guard
import Asolaria.Library.Patterns

namespace Asolaria.SignGate
open Library Crypto
open scoped Computability

/-- One of the characters `A-Z`, `0-9` and `_`. -/
def NameChar (c : Char) : Prop := c.isUpper ∨ c.isDigit ∨ c = '_'

instance : DecidablePred NameChar := fun c => inferInstanceAs (Decidable (c.isUpper ∨ c.isDigit ∨ c = '_'))

/-- The pattern `^[A-Z][A-Z0-9_]*VIRUS[A-Z0-9_]*$` of the documentation. -/
def documentedNames : Language Char :=
  symbol (·.isUpper) * (symbol NameChar)∗ * {"VIRUS".toList} * (symbol NameChar)∗

/-- The names that are let through: `VIRUS` may also stand at the beginning. -/
def allowedNames : Language Char := documentedNames + {"VIRUS".toList} * (symbol NameChar)∗

section Classes
variable {c : Char}

theorem isUpper_iff : c.isUpper ↔ 65 ≤ c.toNat ∧ c.toNat ≤ 90 := by
  change decide (c.val ≥ 'A'.val ∧ c.val ≤ 'Z'.val) = true ↔ _
  rw [decide_eq_true_eq, ge_iff_le, UInt32.le_iff_toNat_le, UInt32.le_iff_toNat_le]
  rfl

theorem nameChar_iff : NameChar c ↔ c.toNat < 128 ∧ isNameByte (UInt8.ofNat c.toNat) = true := by
  have digit : c.isDigit ↔ 48 ≤ c.toNat ∧ c.toNat ≤ 57 := by
    simp [Char.isDigit, UInt32.le_iff_toNat_le, ← Char.toNat_val]
  have underscore : c = '_' ↔ c.toNat = 95 := Char.toNat_inj.symm
  rw [NameChar, isUpper_iff, digit, underscore]
  rcases Nat.lt_or_ge c.toNat 128 with ascii | wide
  · simp [isNameByte, UInt8.le_iff_toNat_le, ← UInt8.toNat_inj, toNat_ofNat_ascii ascii, ascii, or_assoc]
  · omega

end Classes

section Names
variable {name : String}

theorem forall_isNameByte_iff : (∀ b ∈ utf8 name, isNameByte b = true) ↔ ∀ c ∈ name.toList, NameChar c := by
  have ascii : ∀ b, isNameByte b = true → b < 128 := by
    intro b inside
    simp only [isNameByte, Bool.or_eq_true, Bool.and_eq_true, decide_eq_true_eq, beq_iff_eq, ← UInt8.toNat_inj,
      UInt8.le_iff_toNat_le] at inside
    rw [UInt8.lt_iff_toNat_lt]
    change (65 ≤ _ ∧ _ ≤ 90 ∨ 48 ≤ _ ∧ _ ≤ 57) ∨ _ = 95 at inside
    change _ < 128
    omega
  rw [forall_mem_utf8 ascii]
  exact forall₂_congr fun c _ => nameChar_iff.symm

theorem upper_ofNat_iff {c : Char} (ascii : c.toNat < 128) :
    65 ≤ UInt8.ofNat c.toNat ∧ UInt8.ofNat c.toNat ≤ 90 ↔ c.isUpper := by
  rw [isUpper_iff, UInt8.le_iff_toNat_le, UInt8.le_iff_toNat_le, toNat_ofNat_ascii ascii]
  rfl

theorem head_utf8_upper_iff : (∃ b ∈ (utf8 name).head?, 65 ≤ b ∧ b ≤ 90) ↔
    ∃ first rest, name.toList = first :: rest ∧ first.isUpper := by
  rw [utf8_eq_flatMap]
  cases name.toList with
  | nil => simp
  | cons c cs =>
    rw [List.flatMap_cons, List.head?_append_of_ne_nil _ String.utf8EncodeChar_ne_nil]
    rcases Nat.lt_or_ge c.toNat 128 with ascii | wide
    · rw [utf8EncodeChar_ascii ascii]
      simp [upper_ofNat_iff ascii]
    · obtain ⟨lead, tail, encoded, high, _⟩ := utf8EncodeChar_wide wide
      rw [encoded]
      have above : ¬ lead ≤ 90 := UInt8.not_le.mpr (UInt8.lt_of_lt_of_le (by decide) high)
      have lower : c.isUpper ≠ true := fun upper => by have := isUpper_iff.mp upper; omega
      simp [above, lower]

/-- What the byte tests of the allow rule ask of the characters. -/
theorem task39EnvvarVirusAllow_iff : task39EnvvarVirusAllow name = true ↔
    (∃ first rest, name.toList = first :: rest ∧ first.isUpper) ∧ (∀ c ∈ name.toList, NameChar c) ∧
      "VIRUS".toList <:+: name.toList := by
  rw [← forall_isNameByte_iff, ← contains_iff, ← head_utf8_upper_iff, task39EnvvarVirusAllow]
  cases utf8 name with
  | nil => simp
  | cons first rest =>
    rw [List.head?_cons, ← List.all_eq_true]
    simp only [Option.mem_some_iff, exists_eq_left']
    by_cases upper : 65 ≤ first ∧ first ≤ 90
    · by_cases named : (first :: rest).all isNameByte = true
      · simp only [upper.1, upper.2, named, decide_true, Bool.and_self, Bool.not_true, Bool.false_eq_true, if_false,
          and_self, true_and]
      · simp only [upper.1, upper.2, named, decide_true, Bool.and_self, Bool.not_true, Bool.false_eq_true, if_false,
          Bool.not_false, if_true, false_and, and_false]
    · have other : (!(decide (65 ≤ first) && decide (first ≤ 90))) = true := by
        rwa [Bool.not_eq_true', Bool.and_eq_false_iff, decide_eq_false_iff_not, decide_eq_false_iff_not,
          ← not_and_or]
      rw [if_pos other]
      exact iff_of_false Bool.false_ne_true fun both => upper both.1

theorem mem_documentedNames {word : List Char} : word ∈ documentedNames ↔
    ∃ first middle rest, first.isUpper ∧ (∀ c ∈ middle, NameChar c) ∧ (∀ c ∈ rest, NameChar c) ∧
      word = first :: middle ++ "VIRUS".toList ++ rest := by
  constructor
  · rintro ⟨_, ⟨_, ⟨_, ⟨first, upper, rfl⟩, middle, named, rfl⟩, _, rfl, rfl⟩, rest, tail, rfl⟩
    exact ⟨first, middle, rest, upper, mem_kstar_symbol.mp named, mem_kstar_symbol.mp tail, rfl⟩
  · rintro ⟨first, middle, rest, upper, named, tail, rfl⟩
    have letter : [first] ∈ symbol (·.isUpper) := mem_symbol.mpr ⟨first, upper, rfl⟩
    have front := Language.append_mem_mul letter (mem_kstar_symbol.mpr named)
    exact Language.append_mem_mul (Language.append_mem_mul front rfl) (mem_kstar_symbol.mpr tail)

theorem forall_nameChar_virus : ∀ c ∈ "VIRUS".toList, NameChar c := forall_mem_of_all (by decide)

/-- Where `VIRUS` stands, either a letter is in front of it or nothing. -/
theorem mem_allowedNames {word : List Char} : word ∈ allowedNames ↔
    (∃ first rest, word = first :: rest ∧ first.isUpper) ∧ (∀ c ∈ word, NameChar c) ∧ "VIRUS".toList <:+: word := by
  rw [allowedNames, Language.mem_add, mem_documentedNames]
  constructor
  · rintro (⟨first, middle, rest, upper, named, tail, rfl⟩ | ⟨_, rfl, rest, tail, rfl⟩)
    · refine ⟨⟨first, _, rfl, upper⟩, ?_, first :: middle, rest, rfl⟩
      rw [List.forall_mem_append, List.forall_mem_append, List.forall_mem_cons]
      exact ⟨⟨⟨.inl upper, named⟩, forall_nameChar_virus⟩, tail⟩
    · refine ⟨⟨'V', _, rfl, by decide⟩, ?_, [], rest, rfl⟩
      rw [List.forall_mem_append]
      exact ⟨forall_nameChar_virus, mem_kstar_symbol.mp tail⟩
  · rintro ⟨⟨first, others, begins, upper⟩, named, front, rest, placed⟩
    rw [← placed, List.forall_mem_append, List.forall_mem_append] at named
    cases front with
    | nil => exact .inr ⟨_, rfl, rest, mem_kstar_symbol.mpr named.2, placed⟩
    | cons c middle =>
      have same : c = first := by
        rw [← placed] at begins
        exact (List.cons.inj begins).1
      subst same
      exact .inl ⟨c, middle, rest, upper, (List.forall_mem_cons.mp named.1.1).2, named.2, placed.symm⟩

end Names

/-- The allow rule accepts the documented names and those that begin with
`VIRUS`, and they are what rescues a denied envelope with a good signature. -/
theorem allow_rescues_iff :
    (∀ name : String, task39EnvvarVirusAllow name = true ↔ name.toList ∈ allowedNames) ∧
    ∀ (canonicalBytes : List UInt8) (sig : Signature) (ownerPubKey : PublicKey) (alg : String)
      (tags names : List String), verifyEnvelopeSignature canonicalBytes sig ownerPubKey alg = .ok () → Denied tags →
      ((gateEnvelope canonicalBytes sig ownerPubKey alg tags names).allowRescued = true ↔
          ∃ name ∈ names, name.toList ∈ allowedNames) ∧
        ((gateEnvelope canonicalBytes sig ownerPubKey alg tags names).admitted = true ↔
          ∃ name ∈ names, name.toList ∈ allowedNames) := by
  have accepts (name : String) : task39EnvvarVirusAllow name = true ↔ name.toList ∈ allowedNames :=
    task39EnvvarVirusAllow_iff.trans mem_allowedNames.symm
  refine ⟨accepts, ?_⟩
  intro canonicalBytes sig ownerPubKey alg tags names signed denied
  obtain ⟨rescued, admitted⟩ := gateEnvelope_denied signed denied names
  rw [rescued, admitted, List.any_eq_true]
  simp only [accepts, and_self]

/-- A drifting envelope with a good signature is let through for `VIRUS_DB`. -/
theorem allow_rescues_virus_db :
    (gateEnvelope [1] ⟨expectedSigBytes ⟨Vector.replicate 32 0⟩ [1]⟩ ⟨Vector.replicate 32 0⟩ "ed25519"
      ["drift-detected"] ["PATH", "VIRUS_DB"]).admitted = true :=
  (allow_rescues_iff.2 _ _ _ _ _ _ (verifyEnvelopeSignature_expected (by decide)) (by decide)).2.mpr
    ⟨"VIRUS_DB", by decide, .inr ⟨"VIRUS".toList, rfl, "_DB".toList, mem_kstar_symbol.mpr (forall_mem_of_all (by decide)), rfl⟩⟩

/-- `VIRUS_DB` is accepted, but its first letter is that of `VIRUS`. -/
theorem allow_not_documented :
    task39EnvvarVirusAllow "VIRUS_DB" = true ∧ "VIRUS_DB".toList ∉ documentedNames := by
  refine ⟨by decide, ?_⟩
  intro documented
  obtain ⟨first, middle, rest, _, _, _, whole⟩ := mem_documentedNames.mp documented
  have behind : "VIRUS".toList <:+: "IRUS_DB".toList := ⟨middle, rest, (List.cons.inj whole).2.symm⟩
  exact absurd (contains_iff.mpr behind) (by decide)

end Asolaria.SignGate
