import Asolaria.Library.MachineInt

namespace Library

/-- The bytes of a string in UTF-8. -/
def utf8 (text : String) : List UInt8 := text.toUTF8.data.toList

/-- `u8::is_ascii_digit`. -/
def isAsciiDigit (b : UInt8) : Bool := 48 ≤ b && b ≤ 57

/-- `u8::is_ascii_hexdigit`. -/
def isAsciiHexdigit (b : UInt8) : Bool := isAsciiDigit b || (65 ≤ b && b ≤ 70) || (97 ≤ b && b ≤ 102)

@[simp] theorem utf8_append (a b : String) : utf8 (a ++ b) = utf8 a ++ utf8 b := by
  simp [utf8, String.toUTF8]

theorem utf8_eq_flatMap (text : String) : utf8 text = text.toList.flatMap String.utf8EncodeChar := by
  change text.toByteArray.data.toList = _
  rw [← String.utf8Encode_toList, List.utf8Encode, List.data_toByteArray]

/-- A substring is one of the bytes as well. -/
theorem infix_utf8 {a b : String} (inside : a.toList <:+: b.toList) : utf8 a <:+: utf8 b := by
  obtain ⟨front, rest, whole⟩ := inside
  refine ⟨front.flatMap String.utf8EncodeChar, rest.flatMap String.utf8EncodeChar, ?_⟩
  rw [utf8_eq_flatMap, utf8_eq_flatMap, ← whole, List.flatMap_append, List.flatMap_append]

theorem utf8_inj {a b : String} : utf8 a = utf8 b ↔ a = b := by
  constructor
  · intro same
    apply String.toByteArray_inj.mp
    apply ByteArray.ext
    exact Array.toList_inj.mp same
  · rintro rfl
    rfl

theorem toList_decimal (n : UInt64) : (toString n).toList = Nat.toDigits 10 n.toNat := by
  show (Nat.repr n.toNat).toList = _
  exact Nat.toList_repr

/-- The decimal digits of a number do not contain a character that is no digit. -/
theorem not_mem_decimal {c : Char} (n : UInt64) (other : c.isDigit = false) : c ∉ (toString n).toList := by
  intro member
  rw [toList_decimal] at member
  have digit := Nat.isDigit_of_mem_toDigits (by decide) (by decide) member
  rw [other] at digit
  cases digit

theorem decimal_inj {a b : UInt64} (same : (toString a).toList = (toString b).toList) : a = b := by
  rw [toList_decimal, toList_decimal] at same
  have values := congrArg (Nat.ofDigitChars 10 · 0) same
  simp only [Nat.ofDigitChars_ten_toDigits] at values
  exact UInt64.toNat_inj.mp values

end Library
