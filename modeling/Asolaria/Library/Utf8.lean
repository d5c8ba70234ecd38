import Asolaria.Library.Text
import Mathlib.Data.List.Chain

namespace Library

/-- A byte at which a character can begin: every byte that is no continuation
byte. -/
def startsChar (b : UInt8) : Bool := b < 128 || 192 ≤ b

/-- What may stand behind a byte of a text: a byte of ASCII ends its
character. -/
def Follows (b c : UInt8) : Prop := b < 128 → startsChar c = true

theorem lead_ofNat {n : Nat} (above : 192 ≤ n) (byte : n < 256) : 192 ≤ UInt8.ofNat n := by
  rw [UInt8.le_iff_toNat_le, UInt8.toNat_ofNat_of_lt' byte]
  exact above

theorem wide_ofNat {n : Nat} (above : 128 ≤ n) (byte : n < 256) : 128 ≤ UInt8.ofNat n := by
  rw [UInt8.le_iff_toNat_le, UInt8.toNat_ofNat_of_lt' byte]
  exact above

section Characters
variable {c : Char}

theorem utf8EncodeChar_ascii (ascii : c.toNat < 128) : String.utf8EncodeChar c = [UInt8.ofNat c.toNat] := by
  change c.val.toNat < 128 at ascii
  rw [String.utf8EncodeChar, if_pos (by omega)]
  rfl

theorem toNat_ofNat_ascii (ascii : c.toNat < 128) : (UInt8.ofNat c.toNat).toNat = c.toNat :=
  UInt8.toNat_ofNat_of_lt' (Nat.lt_trans ascii (by decide))

/-- Any other character has a lead byte, and no byte of ASCII. -/
theorem utf8EncodeChar_wide (wide : 128 ≤ c.toNat) :
    ∃ lead rest, String.utf8EncodeChar c = lead :: rest ∧ 192 ≤ lead ∧ ∀ b ∈ lead :: rest, 128 ≤ b := by
  change 128 ≤ c.val.toNat at wide
  unfold String.utf8EncodeChar
  simp only
  rw [if_neg (by omega)]
  split
  · refine ⟨_, _, rfl, lead_ofNat (by omega) (by omega), ?_⟩
    simp (disch := omega) only [List.mem_cons, List.not_mem_nil, or_false, forall_eq_or_imp, forall_eq, wide_ofNat, and_self]
  · split
    · refine ⟨_, _, rfl, lead_ofNat (by omega) (by omega), ?_⟩
      simp (disch := omega) only [List.mem_cons, List.not_mem_nil, or_false, forall_eq_or_imp, forall_eq, wide_ofNat, and_self]
    · refine ⟨_, _, rfl, lead_ofNat (by omega) (by omega), ?_⟩
      simp (disch := omega) only [List.mem_cons, List.not_mem_nil, or_false, forall_eq_or_imp, forall_eq, wide_ofNat, and_self]

theorem isChain_utf8EncodeChar : (String.utf8EncodeChar c).IsChain Follows := by
  rcases Nat.lt_or_ge c.toNat 128 with ascii | wide
  · rw [utf8EncodeChar_ascii ascii]
    exact .singleton _
  · obtain ⟨lead, rest, encoded, _, high⟩ := utf8EncodeChar_wide wide
    rw [encoded]
    apply List.Pairwise.isChain
    apply List.pairwise_of_forall_mem_list
    intro b member _ _ ascii
    exact absurd ascii (UInt8.not_lt.mpr (high b member))

theorem startsChar_of_head {b : UInt8} (first : b ∈ (String.utf8EncodeChar c).head?) : startsChar b = true := by
  rcases Nat.lt_or_ge c.toNat 128 with ascii | wide
  · rw [utf8EncodeChar_ascii ascii, List.head?_cons, Option.mem_some_iff] at first
    have low : UInt8.ofNat c.toNat < 128 := by
      rw [UInt8.lt_iff_toNat_lt, toNat_ofNat_ascii ascii]
      exact ascii
    simp [startsChar, ← first, low]
  · obtain ⟨lead, rest, encoded, high, _⟩ := utf8EncodeChar_wide wide
    rw [encoded, List.head?_cons, Option.mem_some_iff] at first
    simp [startsChar, ← first, high]

end Characters

theorem startsChar_of_head_flatMap {chars : List Char} {b : UInt8}
    (first : b ∈ (chars.flatMap String.utf8EncodeChar).head?) : startsChar b = true := by
  cases chars with
  | nil => cases first
  | cons c rest =>
    rw [List.flatMap_cons, List.head?_append_of_ne_nil _ String.utf8EncodeChar_ne_nil] at first
    exact startsChar_of_head first

/-- In the bytes of a text a character begins behind every byte of ASCII. -/
theorem isChain_follows_utf8 (text : String) : (utf8 text).IsChain Follows := by
  rw [utf8_eq_flatMap]
  induction text.toList with
  | nil => exact .nil
  | cons c rest ih =>
    rw [List.flatMap_cons]
    exact List.isChain_append.mpr ⟨isChain_utf8EncodeChar, ih, fun _ _ _ first _ => startsChar_of_head_flatMap first⟩

/-- A class of bytes of ASCII holds of all the bytes of a text where it holds
of all its characters. -/
theorem forall_mem_utf8 {p : UInt8 → Prop} (ascii : ∀ b, p b → b < 128) {text : String} :
    (∀ b ∈ utf8 text, p b) ↔ ∀ c ∈ text.toList, c.toNat < 128 ∧ p (UInt8.ofNat c.toNat) := by
  rw [utf8_eq_flatMap, List.forall_mem_flatMap]
  refine forall₂_congr fun c _ => ?_
  rcases Nat.lt_or_ge c.toNat 128 with low | wide
  · simp [utf8EncodeChar_ascii low, low]
  · obtain ⟨lead, rest, encoded, _, high⟩ := utf8EncodeChar_wide wide
    refine iff_of_false (fun all => ?_) (fun both => absurd both.1 (Nat.not_lt.mpr wide))
    rw [encoded] at all
    have member : lead ∈ lead :: rest := List.mem_cons_self
    exact absurd (ascii lead (all lead member)) (UInt8.not_lt.mpr (high lead member))

/-- In ASCII every character is one byte. -/
theorem length_utf8_ascii {text : String} (ascii : ∀ c ∈ text.toList, c.toNat < 128) :
    (utf8 text).length = text.toList.length := by
  rw [utf8_eq_flatMap, List.length_flatMap]
  have one : ∀ c ∈ text.toList, (String.utf8EncodeChar c).length = 1 := fun c member => by
    rw [utf8EncodeChar_ascii (ascii c member), List.length_singleton]
  rw [List.map_congr_left one]
  simp

/-- `str::is_char_boundary`. -/
def isCharBoundary (s : List UInt8) (i : Nat) : Bool :=
  i == 0 ||
    match s[i]? with
    | some b => startsChar b
    | none => i == s.length

/-- A range of the bytes of a text. Without a value where the range is out of
order or an end of it is no character boundary: there the slice panics. -/
def strSliceChecked (s : List UInt8) (start stop : Nat) : Option (List UInt8) :=
  if start ≤ stop ∧ isCharBoundary s start ∧ isCharBoundary s stop then some ((s.take stop).drop start) else none

section Slices
variable {s : List UInt8} {b : UInt8} {i start stop : Nat}

@[simp] theorem isCharBoundary_zero : isCharBoundary s 0 = true := by simp [isCharBoundary]

@[simp] theorem isCharBoundary_length : isCharBoundary s s.length = true := by simp [isCharBoundary]

theorem isCharBoundary_of_ascii (here : s[i]? = some b) (ascii : b < 128) : isCharBoundary s i = true := by
  simp [isCharBoundary, here, startsChar, ascii]

theorem isCharBoundary_succ (chain : s.IsChain Follows) (here : s[i]? = some b) (ascii : b < 128) :
    isCharBoundary s (i + 1) = true := by
  obtain ⟨inside, at_i⟩ := List.getElem?_eq_some_iff.mp here
  rcases Nat.lt_or_ge (i + 1) s.length with more | last
  · have next : s[i + 1]? = some s[i + 1] := List.getElem?_eq_getElem more
    have follows := List.isChain_iff_getElem.mp chain i more
    rw [at_i] at follows
    simp [isCharBoundary, next, follows ascii]
  · have length : i + 1 = s.length := by omega
    rw [length]
    exact isCharBoundary_length

theorem strSliceChecked_eq (ordered : start ≤ stop) (left : isCharBoundary s start = true)
    (right : isCharBoundary s stop = true) : strSliceChecked s start stop = some ((s.take stop).drop start) :=
  if_pos ⟨ordered, left, right⟩

theorem strSliceChecked_take (boundary : isCharBoundary s stop = true) : strSliceChecked s 0 stop = some (s.take stop) :=
  strSliceChecked_eq (Nat.zero_le _) isCharBoundary_zero boundary

theorem strSliceChecked_drop (inside : start ≤ s.length) (boundary : isCharBoundary s start = true) :
    strSliceChecked s start s.length = some (s.drop start) := by
  rw [strSliceChecked_eq inside boundary isCharBoundary_length, List.take_length]

/-- A leading byte of ASCII can be cut off. -/
theorem strSliceChecked_tail (chain : s.IsChain Follows) (first : s.head? = some b) (ascii : b < 128) :
    strSliceChecked s 1 s.length = some (s.drop 1) := by
  rw [List.head?_eq_getElem?] at first
  exact strSliceChecked_drop (List.getElem?_eq_some_iff.mp first).1 (isCharBoundary_succ chain first ascii)

end Slices

example : strSliceChecked (utf8 "A\u00e9-") 1 3 = some [195, 169] ∧ strSliceChecked (utf8 "A\u00e9-") 2 4 = none := by
  decide

end Library
