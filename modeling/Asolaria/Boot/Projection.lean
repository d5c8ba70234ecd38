import Asolaria.Boot.PciScan
import Mathlib.Data.List.Induction

namespace Asolaria.Boot
open Library

/-- The tuple after the pushes of some functions. -/
def held (functions : List PciFunction) : HwTuple :=
  functions.foldl (fun tuple f => tuple.push f.vendor f.device f.classCode f.subclass f.progIf) .new

/-- The 16-bit big-endian word of a text with the given number. -/
def wordBE (bytes : List UInt8) (k : Nat) : Nat := ofBytes ((bytes.drop (2 * k)).take 2)

/-- The coordinate has sixty glyphs, cut from the hashes of the tuple with four
counters, and no two of the texts that are hashed agree. `sha256` reads the
first `TUPLE_CAP` bytes of what it is given. -/
structure Projected (tuple : List UInt8) : Prop where
  length : (project60d tuple).length = 60
  glyphs : ∀ c k, k < 16 → 16 * c + k < 60 → ∃ glyph, (project60d tuple)[16 * c + k]? = some glyph ∧
    glyph.toNat = wordBE (Sha256.digest (tuple ++ beBytes 4 c)).toList k % 1024
  distinct : ∀ c < 4, ∀ d < 4, (tuple ++ beBytes 4 c).take tupleCap = (tuple ++ beBytes 4 d).take tupleCap → c = d

/-- The glyphs of a digest, two bytes each. -/
def glyphsOf : List UInt8 → List UInt16
  | hi :: lo :: rest => (((hi.toUInt16 <<< 8) ||| lo.toUInt16) &&& 0x03FF) :: glyphsOf rest
  | _ => []

/-- The glyphs of one counter. -/
def glyphBlock (tuple : List UInt8) (c : Nat) : List UInt16 := glyphsOf (sha256 (tuple ++ beBytes 4 c)).toList

variable {tuple bytes : List UInt8} {functions : List PciFunction}

theorem sha256_take (data : List UInt8) : sha256 (data.take tupleCap) = sha256 data := by
  have counted : (if (data.take tupleCap).length > tupleCap then tupleCap else (data.take tupleCap).length) =
      if data.length > tupleCap then tupleCap else data.length := by
    rw [List.length_take]
    split <;> split <;> omega
  have small : (if data.length > tupleCap then tupleCap else data.length) ≤ tupleCap := by
    split <;> omega
  have same : paddedBuffer (data.take tupleCap) = paddedBuffer data := by
    unfold paddedBuffer
    rw [counted]
    dsimp only
    rw [List.take_take, Nat.min_eq_left small]
  rw [sha256, sha256, same]

theorem length_glyphsOf (bytes : List UInt8) : (glyphsOf bytes).length = bytes.length / 2 := by
  fun_induction glyphsOf bytes with
  | case1 hi lo rest ih =>
    rw [List.length_cons, ih, List.length_cons, List.length_cons]
    omega
  | case2 bytes short =>
    have := length_lt_two short
    rw [List.length_nil]
    omega

theorem length_glyphBlock (tuple : List UInt8) (c : Nat) : (glyphBlock tuple c).length = 16 := by
  rw [glyphBlock, length_glyphsOf, Vector.length_toList]

/-- The low ten bits of two bytes. -/
theorem toNat_glyph (hi lo : UInt8) :
    (((hi.toUInt16 <<< 8) ||| lo.toUInt16) &&& 0x03FF).toNat = ofBytes [hi, lo] % 1024 := by
  have low := lo.toNat_lt
  have high := hi.toNat_lt
  have shifted : (hi.toNat <<< 8) % 2 ^ 16 = hi.toNat <<< 8 := by
    rw [Nat.shiftLeft_eq]
    omega
  have joined : hi.toNat <<< 8 ||| lo.toNat = hi.toNat * 256 + lo.toNat := by
    rw [← Nat.shiftLeft_add_eq_or_of_lt low, Nat.shiftLeft_eq]
  have masked : (hi.toNat * 256 + lo.toNat) &&& 1023 = (hi.toNat * 256 + lo.toNat) % 1024 :=
    Nat.and_two_pow_sub_one_eq_mod _ 10
  rw [UInt16.toNat_and, UInt16.toNat_or, UInt16.toNat_shiftLeft, UInt8.toNat_toUInt16, UInt8.toNat_toUInt16]
  show ((hi.toNat <<< 8) % 2 ^ 16 ||| lo.toNat) &&& 1023 = _
  rw [shifted, joined, masked]
  simp [ofBytes]

theorem getElem?_glyphsOf {k : Nat} (inside : 2 * k + 1 < bytes.length) :
    ∃ glyph, (glyphsOf bytes)[k]? = some glyph ∧ glyph.toNat = wordBE bytes k % 1024 := by
  fun_induction glyphsOf bytes generalizing k with
  | case1 hi lo rest ih =>
    cases k with
    | zero => exact ⟨_, rfl, toNat_glyph hi lo⟩
    | succ k =>
      rw [List.length_cons, List.length_cons] at inside
      exact ih (by omega)
  | case2 bytes short =>
    have := length_lt_two short
    omega

/-- The inner loop takes the glyphs of the digest as far as there is room. -/
theorem takeGlyphs_eq {sel : List UInt16} (room : sel.length ≤ 60) :
    takeGlyphs bytes sel = (sel ++ glyphsOf bytes).take 60 := by
  fun_induction takeGlyphs bytes sel with
  | case1 hi lo rest sel below ih =>
    rw [ih (by rw [List.length_append, List.length_singleton]; omega), glyphsOf, List.append_assoc,
      List.singleton_append]
  | case2 hi lo rest sel full =>
    have whole : sel.length = 60 := by omega
    rw [← whole, List.take_left]
  | case3 bytes sel short =>
    have unpaired := length_lt_two short
    have none : glyphsOf bytes = [] := by
      apply List.eq_nil_of_length_eq_zero
      rw [length_glyphsOf]
      omega
    rw [none, List.append_nil, List.take_of_length_le room]

/-- The glyphs of the first counters. -/
def glyphBlocks (tuple : List UInt8) (c : Nat) : List UInt16 := (List.range c).flatMap (glyphBlock tuple)

theorem glyphBlocks_succ (tuple : List UInt8) (c : Nat) :
    glyphBlocks tuple (c + 1) = glyphBlocks tuple c ++ glyphBlock tuple c := by
  rw [glyphBlocks, List.range_succ, List.flatMap_append, List.flatMap_singleton]
  rfl

theorem length_glyphBlocks (tuple : List UInt8) (c : Nat) : (glyphBlocks tuple c).length = 16 * c := by
  induction c with
  | zero => rfl
  | succ c ih => rw [glyphBlocks_succ, List.length_append, ih, length_glyphBlock, Nat.mul_succ]

theorem getElem?_glyphBlocks {n c k : Nat} (block : c < n) (place : k < 16) :
    (glyphBlocks tuple n)[16 * c + k]? = (glyphBlock tuple c)[k]? := by
  have length := length_glyphBlocks tuple
  induction n with
  | zero => omega
  | succ n ih =>
    rw [glyphBlocks_succ]
    by_cases before : c < n
    · rw [List.getElem?_append_left (by rw [length]; omega), ih before]
    · have last : c = n := by omega
      rw [List.getElem?_append_right (by rw [length]; omega), length, last, Nat.add_sub_cancel_left]

/-- The outer loop goes through four counters and ends with sixty glyphs. -/
theorem projectLoop_eq {turns c : Nat} (begun : c ≤ 4) (enough : 4 ≤ c + turns) :
    projectLoop tuple turns (UInt32.ofNat c) ((glyphBlocks tuple c).take 60) = (glyphBlocks tuple 4).take 60 := by
  have length := length_glyphBlocks tuple c
  induction turns generalizing c with
  | zero =>
    rw [projectLoop, show c = 4 by omega]
  | succ turns ih =>
    rw [projectLoop]
    split
    · next below =>
      rw [List.length_take, length] at below
      have whole : (glyphBlocks tuple c).take 60 = glyphBlocks tuple c := List.take_of_length_le (by omega)
      have counter : (UInt32.ofNat c).toNat = c := by
        rw [UInt32.toNat_ofNat']
        omega
      have next : UInt32.ofNat c + 1 = UInt32.ofNat (c + 1) := (UInt32.ofNat_add c 1).symm
      rw [counter, whole, takeGlyphs_eq (by omega), next]
      show projectLoop tuple turns (UInt32.ofNat (c + 1)) ((glyphBlocks tuple c ++ glyphBlock tuple c).take 60) = _
      rw [← glyphBlocks_succ]
      exact ih (by omega) (by omega) (length_glyphBlocks tuple (c + 1))
    · next full =>
      rw [List.length_take, length] at full
      rw [show c = 4 by omega]

theorem project60d_eq (fits : tuple.length ≤ tupleCap) : project60d tuple = (glyphBlocks tuple 4).take 60 := by
  have whole : tuple.take (if tuple.length > tupleCap then tupleCap else tuple.length) = tuple := by
    rw [if_neg (Nat.not_lt.mpr fits), List.take_length]
  rw [project60d, whole]
  exact projectLoop_eq (Nat.zero_le 4) (by decide)

/-- A tuple has a record for each function, up to 85 of them. -/
theorem length_held (functions : List PciFunction) : (held functions).buf.length = 6 * min functions.length 85 := by
  induction functions using List.reverseRecOn with
  | nil => rfl
  | append_singleton functions f ih =>
    rw [held, List.foldl_append, List.foldl_cons, List.foldl_nil, ← held, HwTuple.push, List.length_append,
      List.length_singleton]
    dsimp only
    rw [ih, tupleCap]
    split
    · next room =>
      simp only [List.length_cons, List.length_nil] at room
      rw [List.length_append, ih]
      simp only [List.length_cons, List.length_nil]
      omega
    · next full =>
      simp only [List.length_cons, List.length_nil] at full
      omega

/-- With room for the counter all four texts are hashed whole. -/
theorem projected_of_room (room : tuple.length + 4 ≤ tupleCap) : Projected tuple where
  length := length_project60d tuple
  glyphs := by
    intro c k place below
    have short : (tuple ++ beBytes 4 c).length ≤ tupleCap := by
      rw [List.length_append, length_beBytes]
      exact room
    rw [project60d_eq (by omega), List.getElem?_take_of_lt below, getElem?_glyphBlocks (by omega) place, glyphBlock,
      sha256_eq_digest short]
    exact getElem?_glyphsOf (by rw [Vector.length_toList]; omega)
  distinct := by
    intro c smallC d smallD same
    have short (e : Nat) : (tuple ++ beBytes 4 e).length ≤ tupleCap := by
      rw [List.length_append, length_beBytes]
      exact room
    rw [List.take_of_length_le (short c), List.take_of_length_le (short d)] at same
    exact (beBytes_inj (by omega) (by omega)).mp (List.append_cancel_left same)

/-- Of the counter only two bytes are read where the tuple takes 510. -/
theorem take_full {c : Nat} (full : tuple.length = 510) (small : c < 4) :
    (tuple ++ beBytes 4 c).take tupleCap = tuple ++ [0, 0] := by
  have bytes : beBytes 4 c = [0, 0] ++ beBytes 2 c := by
    rcases (show c = 0 ∨ c = 1 ∨ c = 2 ∨ c = 3 by omega) with rfl | rfl | rfl | rfl <;> decide
  rw [bytes, ← List.append_assoc, List.take_left' (by rw [List.length_append, full]; rfl)]

theorem not_projected_of_full (full : tuple.length = 510) : ¬ Projected tuple := by
  intro projected
  have same := projected.distinct 0 (by decide) 1 (by decide)
    ((take_full full (by decide)).trans (take_full full (by decide)).symm)
  exact absurd same (by decide)

/-- The coordinate of a full tuple is the first sixteen glyphs over and over. -/
theorem glyphs_repeat_of_full (full : tuple.length = 510) {c k : Nat} (place : k < 16) (below : 16 * c + k < 60) :
    (project60d tuple)[16 * c + k]? = (project60d tuple)[k]? := by
  have short : tuple.length ≤ tupleCap := by
    rw [full]
    decide
  have block (e : Nat) (small : e < 4) : glyphBlock tuple e = glyphsOf (sha256 (tuple ++ [0, 0])).toList := by
    rw [glyphBlock, ← sha256_take, take_full full small]
  have first := @getElem?_glyphBlocks tuple 4 0 k (by decide) place
  rw [Nat.mul_zero, Nat.zero_add] at first
  rw [project60d_eq short, List.getElem?_take_of_lt below, List.getElem?_take_of_lt (by omega),
    getElem?_glyphBlocks (by omega) place, first, block c (by omega), block 0 (by decide)]

/-- The projection does what it says up to 84 functions. -/
theorem projected_iff (functions : List PciFunction) : Projected (held functions).buf ↔ functions.length ≤ 84 := by
  have length := length_held functions
  constructor
  · intro projected
    by_contra many
    exact not_projected_of_full (by omega) projected
  · intro few
    refine projected_of_room ?_
    rw [tupleCap]
    omega

/-- A tuple of 85 functions, all alike. -/
theorem full_tuple_not_projected : ¬ Projected (held (List.replicate 85 ⟨0, 0, 0, 0x8086, 0x282A, 1, 4, 0⟩)).buf := by
  refine not_projected_of_full ?_
  rw [length_held, List.length_replicate]
  rfl

end Asolaria.Boot
