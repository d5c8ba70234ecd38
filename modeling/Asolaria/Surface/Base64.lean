import Asolaria.Library.Base64
import Asolaria.Library.Hex
import Asolaria.Library.Utf8

namespace Asolaria.Surface
open Library

/-- The table of `base64`, each byte as the character it is cast to. -/
def T : List Char := "ABCDEFGHIJKLMNOPQRSTUVWXYZabcdefghijklmnopqrstuvwxyz0123456789+/".toList

/-- `slice::chunks` with chunks of three. -/
def chunks3 : List UInt8 → List (List UInt8)
  | [] => []
  | [b0] => [[b0]]
  | [b0, b1] => [[b0, b1]]
  | b0 :: b1 :: b2 :: rest => [b0, b1, b2] :: chunks3 rest

section Bits

theorem toNat_first (b0 : UInt8) : (b0 >>> 2).toNat = b0.toNat / 4 := by
  simp [UInt8.toNat_shiftRight, Nat.shiftRight_eq_div_pow]

theorem toNat_second (b0 b1 : UInt8) :
    (((b0 &&& 0x03) <<< 4) ||| (b1 >>> 4)).toNat = 16 * (b0.toNat % 4) + b1.toNat / 16 := by
  have masked : (b0 &&& 0x03).toNat = b0.toNat % 4 := by
    rw [UInt8.toNat_and]
    exact Nat.and_two_pow_sub_one_eq_mod b0.toNat 2
  have moved : ((b0 &&& 0x03) <<< 4).toNat = 2 ^ 4 * (b0.toNat % 4) := by
    rw [UInt8.toNat_shiftLeft, masked, Nat.shiftLeft_eq]
    change b0.toNat % 4 * 2 ^ 4 % 2 ^ 8 = _
    omega
  have bound := b1.toNat_lt
  rw [toNat_or_of_lt moved (by rw [toNat_high]; omega), moved, toNat_high]
  rfl

theorem toNat_third (b1 b2 : UInt8) :
    (((b1 &&& 0x0f) <<< 2) ||| (b2 >>> 6)).toNat = 4 * (b1.toNat % 16) + b2.toNat / 64 := by
  have high : (b2 >>> 6).toNat = b2.toNat / 64 := by
    simp [UInt8.toNat_shiftRight, Nat.shiftRight_eq_div_pow]
  have moved : ((b1 &&& 0x0f) <<< 2).toNat = 2 ^ 2 * (b1.toNat % 16) := by
    rw [UInt8.toNat_shiftLeft, toNat_low, Nat.shiftLeft_eq]
    change b1.toNat % 16 * 2 ^ 2 % 2 ^ 8 = _
    omega
  have bound := b2.toNat_lt
  rw [toNat_or_of_lt moved (by rw [high]; omega), moved, high]
  rfl

theorem toNat_fourth (b2 : UInt8) : (b2 &&& 0x3f).toNat = b2.toNat % 64 := by
  rw [UInt8.toNat_and]
  exact Nat.and_two_pow_sub_one_eq_mod b2.toNat 6

end Bits

/-- The indices into the table. -/
def firstIndex (b0 : UInt8) : Fin 64 :=
  ⟨(b0 >>> 2).toNat, by rw [toNat_first]; have := b0.toNat_lt; omega⟩

def secondIndex (b0 b1 : UInt8) : Fin 64 :=
  ⟨(((b0 &&& 0x03) <<< 4) ||| (b1 >>> 4)).toNat, by rw [toNat_second]; have := b1.toNat_lt; omega⟩

def thirdIndex (b1 b2 : UInt8) : Fin 64 :=
  ⟨(((b1 &&& 0x0f) <<< 2) ||| (b2 >>> 6)).toNat, by rw [toNat_third]; have := b2.toNat_lt; omega⟩

def fourthIndex (b2 : UInt8) : Fin 64 := ⟨(b2 &&& 0x3f).toNat, by rw [toNat_fourth]; omega⟩

/-- What the loop of `base64` pushes for a chunk. -/
def encodeChunk (chunk : List UInt8) : List Char :=
  let b0 := chunk.getD 0 0
  let b1 := chunk.getD 1 0
  let b2 := chunk.getD 2 0
  [T.get (firstIndex b0), T.get (secondIndex b0 b1),
    if chunk.length > 1 then T.get (thirdIndex b1 b2) else '=',
    if chunk.length > 2 then T.get (fourthIndex b2) else '=']

def base64 (data : List UInt8) : String := String.ofList ((chunks3 data).flatMap encodeChunk)

section Groups
variable (b0 b1 b2 : UInt8)

theorem group_three : Base64.decodeGroup [firstIndex b0, secondIndex b0 b1, thirdIndex b1 b2, fourthIndex b2] =
    some [b0, b1, b2] := by
  have bound0 := b0.toNat_lt
  have bound1 := b1.toNat_lt
  have bound2 := b2.toNat_lt
  apply Base64.decodeGroup_eq rfl
  simp only [Base64.ofDigits, List.foldl_cons, List.foldl_nil, firstIndex, secondIndex, thirdIndex, fourthIndex,
    toNat_first, toNat_second, toNat_third, toNat_fourth, ofBytes, List.length_cons, List.length_nil]
  omega

theorem group_two : Base64.decodeGroup [firstIndex b0, secondIndex b0 b1, thirdIndex b1 0] = some [b0, b1] := by
  have bound0 := b0.toNat_lt
  have bound1 := b1.toNat_lt
  apply Base64.decodeGroup_eq rfl
  simp only [Base64.ofDigits, List.foldl_cons, List.foldl_nil, firstIndex, secondIndex, thirdIndex,
    toNat_first, toNat_second, toNat_third, UInt8.toNat_zero, ofBytes, List.length_cons, List.length_nil]
  omega

theorem group_one : Base64.decodeGroup [firstIndex b0, secondIndex b0 0] = some [b0] := by
  have bound0 := b0.toNat_lt
  apply Base64.decodeGroup_eq rfl
  simp only [Base64.ofDigits, List.foldl_cons, List.foldl_nil, firstIndex, secondIndex, toNat_first, toNat_second,
    UInt8.toNat_zero, ofBytes, List.length_cons, List.length_nil]
  omega

end Groups

theorem length_encodeChunk (chunk : List UInt8) : (encodeChunk chunk).length = 4 := rfl

theorem length_chunks3 (data : List UInt8) : (chunks3 data).length = (data.length + 2) / 3 := by
  induction data using chunks3.induct with
  | case1 => rfl
  | case2 => simp [chunks3]
  | case3 => simp [chunks3]
  | case4 b0 b1 b2 rest ih =>
    rw [chunks3, List.length_cons, ih, List.length_cons, List.length_cons, List.length_cons]
    omega

theorem toList_base64 (data : List UInt8) : (base64 data).toList = (chunks3 data).flatMap encodeChunk :=
  String.toList_ofList

theorem length_base64 (data : List UInt8) : (base64 data).toList.length = 4 * ((data.length + 2) / 3) := by
  rw [toList_base64, List.length_flatMap, ← length_chunks3, Nat.mul_comm]
  simp [length_encodeChunk]

/-- The digits of the chunks, and the padding of the last one. -/
theorem padded_chunks (data : List UInt8) :
    Base64.Padded ((3 - data.length % 3) % 3) ((chunks3 data).flatMap encodeChunk) := by
  induction data using chunks3.induct with
  | case1 => exact .pads 0
  | case2 b0 => exact .append [firstIndex b0, secondIndex b0 0] (.pads 2)
  | case3 b0 b1 => exact .append [firstIndex b0, secondIndex b0 b1, thirdIndex b1 0] (.pads 1)
  | case4 b0 b1 b2 rest ih =>
    have count : (b0 :: b1 :: b2 :: rest).length % 3 = rest.length % 3 := by
      rw [List.length_cons, List.length_cons, List.length_cons]
      omega
    rw [count]
    exact .append [firstIndex b0, secondIndex b0 b1, thirdIndex b1 b2, fourthIndex b2] ih

theorem decode_chunks (data : List UInt8) : Base64.decode ((chunks3 data).flatMap encodeChunk) = some data := by
  induction data using chunks3.induct with
  | case1 => rfl
  | case2 b0 => exact Base64.decode_one (group_one b0)
  | case3 b0 b1 => exact Base64.decode_two (group_two b0 b1)
  | case4 b0 b1 b2 rest ih => exact Base64.decode_full (group_three b0 b1 b2) ih

theorem padded_base64 (data : List UInt8) :
    Base64.Padded ((3 - data.length % 3) % 3) (base64 data).toList := by
  rw [toList_base64]
  exact padded_chunks data

theorem decode_base64 (data : List UInt8) : Base64.decode (base64 data).toList = some data := by
  rw [toList_base64]
  exact decode_chunks data

/-- The text of a byte string has the length and the padding of RFC 4648, and
its decoder gives the bytes back. -/
theorem base64_canonical (data : List UInt8) :
    (utf8 (base64 data)).length = 4 * ((data.length + 2) / 3) ∧
      Base64.Padded ((3 - data.length % 3) % 3) (base64 data).toList ∧
      Base64.decode (base64 data).toList = some data := by
  have padded := padded_base64 data
  refine ⟨?_, padded, decode_base64 data⟩
  rw [length_utf8_ascii padded.ascii, length_base64]

end Asolaria.Surface
