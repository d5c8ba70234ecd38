import Asolaria.Library.Text
import Mathlib.Data.List.DropRight

namespace Library

def replacementCharacter : Char := '\uFFFD'

/-- A character that has begun: the bytes it still needs, the bounds of the
next of them, and what the bytes so far say of its code point. -/
structure PendingChar where
  needed : Nat
  low : Nat
  high : Nat
  point : Nat
deriving DecidableEq, Repr

/-- A byte where a character may begin. -/
def firstByte (b : UInt8) : List Char × Option PendingChar :=
  let n := b.toNat
  if n < 0x80 then ([Char.ofNat n], none)
  else if 0xC2 ≤ n ∧ n ≤ 0xDF then ([], some ⟨1, 0x80, 0xBF, n - 0xC0⟩)
  else if 0xE0 ≤ n ∧ n ≤ 0xEF then
    ([], some ⟨2, if n = 0xE0 then 0xA0 else 0x80, if n = 0xED then 0x9F else 0xBF, n - 0xE0⟩)
  else if 0xF0 ≤ n ∧ n ≤ 0xF4 then
    ([], some ⟨3, if n = 0xF0 then 0x90 else 0x80, if n = 0xF4 then 0x8F else 0xBF, n - 0xF0⟩)
  else ([replacementCharacter], none)

/-- A byte behind a character that has begun. One that does not belong to it
breaks it off and is looked at again. -/
def laterByte (p : PendingChar) (b : UInt8) : List Char × Option PendingChar :=
  if p.low ≤ b.toNat ∧ b.toNat ≤ p.high then
    let point := 64 * p.point + (b.toNat - 0x80)
    if p.needed = 1 then ([Char.ofNat point], none) else ([], some ⟨p.needed - 1, 0x80, 0xBF, point⟩)
  else (replacementCharacter :: (firstByte b).1, (firstByte b).2)

def decodeByte : Option PendingChar → UInt8 → List Char × Option PendingChar
  | none => firstByte
  | some p => laterByte p

/-- The characters of UTF-8, with a replacement character for the longest
beginning of a character wherever the bytes are none. -/
def decodeFrom (pending : Option PendingChar) : List UInt8 → List Char
  | [] => if pending.isSome then [replacementCharacter] else []
  | b :: rest => (decodeByte pending b).1 ++ decodeFrom (decodeByte pending b).2 rest

/-- `String::from_utf8_lossy`. -/
def fromUtf8Lossy (bytes : List UInt8) : String := String.ofList (decodeFrom none bytes)

section Bytes
variable {b : UInt8} {rest : List UInt8} {needed low high point : Nat}

theorem decodeFrom_one (ascii : b.toNat < 0x80) :
    decodeFrom none (b :: rest) = Char.ofNat b.toNat :: decodeFrom none rest := by
  rw [decodeFrom, decodeByte, firstByte, if_pos ascii]
  rfl

theorem decodeFrom_two (above : 0xC2 ≤ b.toNat) (below : b.toNat ≤ 0xDF) :
    decodeFrom none (b :: rest) = decodeFrom (some ⟨1, 0x80, 0xBF, b.toNat - 0xC0⟩) rest := by
  rw [decodeFrom, decodeByte, firstByte, if_neg (by omega), if_pos ⟨above, below⟩]
  rfl

theorem decodeFrom_three (above : 0xE0 ≤ b.toNat) (below : b.toNat ≤ 0xEF) :
    decodeFrom none (b :: rest) = decodeFrom (some ⟨2, if b.toNat = 0xE0 then 0xA0 else 0x80,
      if b.toNat = 0xED then 0x9F else 0xBF, b.toNat - 0xE0⟩) rest := by
  rw [decodeFrom, decodeByte, firstByte, if_neg (by omega), if_neg (by omega), if_pos ⟨above, below⟩]
  rfl

theorem decodeFrom_four (above : 0xF0 ≤ b.toNat) (below : b.toNat ≤ 0xF4) :
    decodeFrom none (b :: rest) = decodeFrom (some ⟨3, if b.toNat = 0xF0 then 0x90 else 0x80,
      if b.toNat = 0xF4 then 0x8F else 0xBF, b.toNat - 0xF0⟩) rest := by
  rw [decodeFrom, decodeByte, firstByte, if_neg (by omega), if_neg (by omega), if_neg (by omega),
    if_pos ⟨above, below⟩]
  rfl

theorem decodeFrom_later (above : low ≤ b.toNat) (below : b.toNat ≤ high) :
    decodeFrom (some ⟨needed + 2, low, high, point⟩) (b :: rest) =
      decodeFrom (some ⟨needed + 1, 0x80, 0xBF, 64 * point + (b.toNat - 0x80)⟩) rest := by
  rw [decodeFrom, decodeByte, laterByte, if_pos ⟨above, below⟩]
  dsimp only
  rw [if_neg (by omega)]
  rfl

theorem decodeFrom_last (above : low ≤ b.toNat) (below : b.toNat ≤ high) :
    decodeFrom (some ⟨1, low, high, point⟩) (b :: rest) =
      Char.ofNat (64 * point + (b.toNat - 0x80)) :: decodeFrom none rest := by
  rw [decodeFrom, decodeByte, laterByte, if_pos ⟨above, below⟩]
  rfl

end Bytes

/-- A character is read back from its bytes. Its last value is what the bits of
all of them give, and the bounds of the second byte are those of a character
that needs that many bytes and is no surrogate. -/
theorem decodeFrom_utf8EncodeChar (c : Char) (rest : List UInt8) :
    decodeFrom none (String.utf8EncodeChar c ++ rest) = c :: decodeFrom none rest := by
  have valid : c.val.toNat < 0xD800 ∨ 0xDFFF < c.val.toNat ∧ c.val.toNat < 0x110000 := c.valid
  have same : Char.ofNat c.val.toNat = c := Char.ofNat_toNat c
  have byte {n : Nat} (bound : n < 256) : (UInt8.ofNat n).toNat = n := UInt8.toNat_ofNat_of_lt' bound
  unfold String.utf8EncodeChar
  dsimp only
  generalize c.val.toNat = v at valid same ⊢
  subst same
  split
  · next ascii =>
    have first := byte (show v < 256 by omega)
    rw [List.singleton_append, decodeFrom_one (by omega), first]
  · split
    · next two =>
      have first := byte (show v / 64 % 32 + 0xC0 < 256 by omega)
      have second := byte (show v % 64 + 0x80 < 256 by omega)
      have whole : 64 * (v / 64 % 32 + 0xC0 - 0xC0) + (v % 64 + 0x80 - 0x80) = v := by omega
      rw [List.cons_append, List.singleton_append, decodeFrom_two (by omega) (by omega),
        decodeFrom_last (by omega) (by omega), first, second, whole]
    · split
      · next three =>
        have first := byte (show v / 4096 % 16 + 0xE0 < 256 by omega)
        have second := byte (show v / 64 % 64 + 0x80 < 256 by omega)
        have third := byte (show v % 64 + 0x80 < 256 by omega)
        have whole : 64 * (64 * (v / 4096 % 16 + 0xE0 - 0xE0) + (v / 64 % 64 + 0x80 - 0x80)) +
            (v % 64 + 0x80 - 0x80) = v := by omega
        rw [List.cons_append, List.cons_append, List.singleton_append, decodeFrom_three (by omega) (by omega),
          decodeFrom_later (by split <;> omega) (by split <;> omega), decodeFrom_last (by omega) (by omega),
          first, second, third, whole]
      · next four =>
        have first := byte (show v / 262144 % 8 + 0xF0 < 256 by omega)
        have second := byte (show v / 4096 % 64 + 0x80 < 256 by omega)
        have third := byte (show v / 64 % 64 + 0x80 < 256 by omega)
        have fourth := byte (show v % 64 + 0x80 < 256 by omega)
        have whole : 64 * (64 * (64 * (v / 262144 % 8 + 0xF0 - 0xF0) + (v / 4096 % 64 + 0x80 - 0x80)) +
            (v / 64 % 64 + 0x80 - 0x80)) + (v % 64 + 0x80 - 0x80) = v := by omega
        rw [List.cons_append, List.cons_append, List.cons_append, List.singleton_append,
          decodeFrom_four (by omega) (by omega),
          decodeFrom_later (by split <;> omega) (by split <;> omega), decodeFrom_later (by omega) (by omega),
          decodeFrom_last (by omega) (by omega), first, second, third, fourth, whole]

theorem decodeFrom_utf8_append (text : String) (rest : List UInt8) :
    decodeFrom none (utf8 text ++ rest) = text.toList ++ decodeFrom none rest := by
  rw [utf8_eq_flatMap]
  induction text.toList with
  | nil => rfl
  | cons c chars ih => rw [List.flatMap_cons, List.append_assoc, decodeFrom_utf8EncodeChar, ih, List.cons_append]

theorem decodeFrom_utf8 (text : String) : decodeFrom none (utf8 text) = text.toList := by
  have whole := decodeFrom_utf8_append text []
  rwa [List.append_nil, show decodeFrom none [] = [] from rfl, List.append_nil] at whole

theorem fromUtf8Lossy_utf8 (text : String) : fromUtf8Lossy (utf8 text) = text := by
  rw [fromUtf8Lossy, decodeFrom_utf8, String.ofList_toList]

/-- `char::is_whitespace`, the Unicode property `White_Space`. -/
def isWhitespace (c : Char) : Bool :=
  let n := c.toNat
  (0x9 ≤ n && n ≤ 0xD) || n == 0x20 || n == 0x85 || n == 0xA0 || n == 0x1680 || (0x2000 ≤ n && n ≤ 0x200A) ||
    n == 0x2028 || n == 0x2029 || n == 0x202F || n == 0x205F || n == 0x3000

/-- `str::trim`. -/
def trim (text : String) : String := String.ofList ((text.toList.dropWhile isWhitespace).rdropWhile isWhitespace)

example : fromUtf8Lossy [65, 0xE2, 0x82, 66, 0xED, 0xA0] = "A\uFFFDB\uFFFD\uFFFD" := by decide

end Library
