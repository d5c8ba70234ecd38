import Asolaria.Library.Delimited
import Asolaria.Library.Text

namespace Asolaria.LevelTag
open Library

/-- Public tier, the only one a portal may serve to any fabric. -/
def levelPublic : UInt8 := 0

/-- Federation tier: the default of a row that is not cleared as public canon. -/
def levelFederation : UInt8 := 5

/-- Owner-private tier: PII and secrets. -/
def levelOwnerPrivate : UInt8 := 9

/-- The table `PII_PATH_FRAGMENTS`. -/
def piiPathFragments : List String :=
  -- legal, financial, customer and personal documents
  ["legal", "evidence-package", "evidence", "google-support-refund", "support-refund-complaints", "refund-complaint",
    "refund", "bank", "invoice", "financial", "paypal", "zelle", "passport", "cnpj", "cpf", "whatsapp-rayssa",
    -- secrets, keys, vault, credentials
    "beast-keys", "backup-keys", "decrypted-vault", "vault", "charm_", "private-key", "privatekey", "recall.key",
    ".pem", ".key", ".pk8", ".kdbx", ".keystore", ".jks", "id_rsa", "id_ed25519", "wallet.dat", "seed-phrase",
    "seed_phrase", "mnemonic", "credential", "secret", "password", "passwd", ".asolaria",
    -- dumps of personal devices
    "dcim", "sdcard", "falcon-dump", "phone-dump"]

/-- The table `PII_CONTENT_FRAGMENTS`. -/
def piiContentFragments : List String :=
  ["cnpj", "cpf ", "paypal", "zelle", "refund complaint", "customer care", "passport no", "invoice #"]

/-- The table `PUBLIC_CANON_FRAGMENTS`. -/
def publicCanonFragments : List String :=
  ["asolaria-multi-cylinder", "scientific-voxel-atlas", "asolaria-real-model", "agentterms-os-dashboard",
    "asolaria-map-index", "archaeology-and-significance-canon", "brown-hilbert", "what-is-asolaria",
    "algorithms-of-asolaria", "session-update", "readme"]

def asciiLower (b : UInt8) : UInt8 := if 65 ≤ b && b ≤ 90 then b + 32 else b

/-- The inner loop of `contains_ci`: the needle against the bytes from one
position on. -/
def matchesAt : List UInt8 → List UInt8 → Bool
  | _, [] => true
  | [], _ :: _ => false
  | h :: hs, n :: ns => asciiLower h == n && matchesAt hs ns

/-- The outer loop of `contains_ci`: every position where the needle fits. -/
def matchesFrom (needle : List UInt8) : List UInt8 → Bool
  | [] => false
  | h :: hs =>
    if (h :: hs).length < needle.length then false
    else matchesAt (h :: hs) needle || matchesFrom needle hs

def containsCi (haystack needleLower : String) : Bool :=
  let h := utf8 haystack
  let n := utf8 needleLower
  if n.isEmpty || n.length > h.length then false else matchesFrom n h

/-- The loop of `has_digit_run`, with the run counted so far. -/
def digitRunFrom (minLen : Nat) : Nat → List UInt8 → Bool
  | _, [] => false
  | run, b :: bs =>
    if isAsciiDigit b then
      if run + 1 ≥ minLen then true else digitRunFrom minLen (run + 1) bs
    else digitRunFrom minLen 0 bs

def hasDigitRun (s : String) (minLen : Nat) : Bool := digitRunFrom minLen 0 (utf8 s)

def isPii (path content : String) : Bool :=
  piiPathFragments.any (containsCi path) || hasDigitRun content 14 || piiContentFragments.any (containsCi content)

def isPublicCanon (path : String) : Bool := publicCanonFragments.any (containsCi path)

def assignLevel (path content : String) : UInt8 :=
  if isPii path content then levelOwnerPrivate
  else if isPublicCanon path then levelPublic
  else levelFederation

theorem matchesAt_iff {haystack needle : List UInt8} :
    matchesAt haystack needle = true ↔ needle <+: haystack.map asciiLower := by
  induction haystack generalizing needle with
  | nil => cases needle <;> simp [matchesAt]
  | cons h hs ih =>
    cases needle with
    | nil => simp [matchesAt]
    | cons n ns =>
      rw [matchesAt, Bool.and_eq_true, beq_iff_eq, ih, List.map_cons, List.cons_prefix_cons, eq_comm]

theorem matchesFrom_iff {haystack needle : List UInt8} (proper : needle ≠ []) :
    matchesFrom needle haystack = true ↔ needle <:+: haystack.map asciiLower := by
  induction haystack with
  | nil => simp [matchesFrom, proper]
  | cons h hs ih =>
    by_cases short : (h :: hs).length < needle.length
    · -- Past the last position where the needle fits no occurrence remains.
      have absent : ¬ needle <:+: (h :: hs).map asciiLower := by
        intro occurs
        have bound := occurs.length_le
        rw [List.length_map] at bound
        omega
      rw [matchesFrom, if_pos short, Bool.false_eq_true, false_iff]
      exact absent
    · rw [matchesFrom, if_neg short, Bool.or_eq_true, matchesAt_iff, ih, List.map_cons, List.infix_cons_iff]

/-- `contains_ci` finds exactly the fragments that occur in the lowered bytes. -/
theorem containsCi_iff {haystack needle : String} (proper : utf8 needle ≠ []) :
    containsCi haystack needle = true ↔ utf8 needle <:+: (utf8 haystack).map asciiLower := by
  by_cases long : (utf8 needle).length > (utf8 haystack).length
  · have absent : ¬ utf8 needle <:+: (utf8 haystack).map asciiLower := by
      intro occurs
      have bound := occurs.length_le
      rw [List.length_map] at bound
      omega
    simp [containsCi, long, absent]
  · simp [containsCi, long, proper, matchesFrom_iff]

/-- The loop with a run already counted answers as if it started in front
of that run. -/
theorem digitRunFrom_iff {minLen : Nat} {bytes before : List UInt8} (short : before.length < minLen)
    (counted : ∀ b ∈ before, isAsciiDigit b = true) :
    digitRunFrom minLen before.length bytes = true ↔
      ∃ digits, digits <:+: before ++ bytes ∧ digits.length = minLen ∧ ∀ b ∈ digits, isAsciiDigit b = true := by
  induction bytes generalizing before with
  | nil =>
    rw [digitRunFrom, Bool.false_eq_true, false_iff]
    rintro ⟨digits, occurs, size, -⟩
    have bound := occurs.length_le
    rw [List.append_nil] at bound
    omega
  | cons b bs ih =>
    by_cases digit : isAsciiDigit b = true
    · have extended : ∀ c ∈ before ++ [b], isAsciiDigit c = true := by
        intro c member
        rcases List.mem_append.mp member with old | new
        · exact counted c old
        · rw [List.mem_singleton.mp new]
          exact digit
      by_cases reached : before.length + 1 ≥ minLen
      · have found : digitRunFrom minLen before.length (b :: bs) = true := by
          simp [digitRunFrom, digit, reached]
        rw [found, eq_self, true_iff]
        exact ⟨before ++ [b], ⟨[], bs, by simp⟩, by simp; omega, extended⟩
      · have size : (before ++ [b]).length = before.length + 1 := by simp
        have rest := ih (by omega) extended
        rw [size, List.append_assoc, List.singleton_append] at rest
        rw [← rest]
        simp [digitRunFrom, digit, reached]
    · have rest := @ih [] (by simp; omega) (by simp)
      rw [List.nil_append, List.length_nil] at rest
      have restart : digitRunFrom minLen before.length (b :: bs) = digitRunFrom minLen 0 bs := by
        simp [digitRunFrom, digit]
      rw [restart, rest]
      constructor
      · rintro ⟨digits, occurs, size, all⟩
        exact ⟨digits, occurs.trans ⟨before ++ [b], [], by simp⟩, size, all⟩
      · rintro ⟨digits, occurs, size, all⟩
        rcases infix_beside occurs (fun member => digit (all b member)) with inside | inside
        · have bound := inside.length_le
          omega
        · exact ⟨digits, inside, size, all⟩

theorem hasDigitRun_iff {s : String} {minLen : Nat} (positive : 0 < minLen) :
    hasDigitRun s minLen = true ↔
      ∃ digits, digits <:+: utf8 s ∧ digits.length = minLen ∧ ∀ b ∈ digits, isAsciiDigit b = true :=
  @digitRunFrom_iff minLen (utf8 s) [] positive (by simp)

theorem any_containsCi_iff {text : String} {fragments : List String} (proper : ∀ fragment ∈ fragments, utf8 fragment ≠ []) :
    fragments.any (containsCi text) = true ↔ ∃ fragment ∈ fragments, utf8 fragment <:+: (utf8 text).map asciiLower := by
  rw [List.any_eq_true]
  refine exists_congr fun fragment => and_congr_right fun member => ?_
  exact containsCi_iff (proper fragment member)

theorem piiPath_proper : ∀ fragment ∈ piiPathFragments, utf8 fragment ≠ [] := by decide

theorem piiContent_proper : ∀ fragment ∈ piiContentFragments, utf8 fragment ≠ [] := by decide

theorem publicCanon_proper : ∀ fragment ∈ publicCanonFragments, utf8 fragment ≠ [] := by decide

/-- What the tagger counts as PII: a listed fragment in the path or the
content, in any ASCII case, or fourteen digits in a row in the content. -/
theorem isPii_iff {path content : String} : isPii path content = true ↔
    (∃ fragment ∈ piiPathFragments, utf8 fragment <:+: (utf8 path).map asciiLower) ∨
    (∃ digits, digits <:+: utf8 content ∧ digits.length = 14 ∧ ∀ b ∈ digits, isAsciiDigit b = true) ∨
    ∃ fragment ∈ piiContentFragments, utf8 fragment <:+: (utf8 content).map asciiLower := by
  rw [isPii, Bool.or_eq_true, Bool.or_eq_true, or_assoc, any_containsCi_iff piiPath_proper,
    any_containsCi_iff piiContent_proper, hasDigitRun_iff (by decide)]

/-- PII wins over public canon, so a row is owner-private exactly when it
carries PII. -/
theorem assignLevel_eq_ownerPrivate {path content : String} :
    assignLevel path content = levelOwnerPrivate ↔ isPii path content = true := by
  unfold assignLevel
  split
  · simp_all
  · split
    · simp_all [levelPublic, levelOwnerPrivate]
    · simp_all [levelFederation, levelOwnerPrivate]

end Asolaria.LevelTag
