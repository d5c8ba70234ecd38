import Asolaria.Boot.Framebuffer

namespace Asolaria.Boot
open Library

/-- A pixel by the coordinates that the loops compute. -/
structure Pixel where
  column : UInt32
  row : UInt32
  deriving DecidableEq, Repr

/-- The store for a pixel. -/
def Pixel.write (pps color : UInt32) (p : Pixel) : PixelWrite := ⟨(p.row * pps + p.column).toNat, color⟩

/-- The pixels of `fbBit`, `fbGlyph` and `fbString`. -/
def bitPixels (cx y0 row col scale : UInt32) : List Pixel :=
  (range32 0 scale).flatMap fun dy => (range32 0 scale).map fun dx => ⟨cx + col * scale + dx, y0 + row * scale + dy⟩

def glyphPixels (c : UInt8) (cx y0 scale : UInt32) : List Pixel :=
  (glyph c).zipIdx.flatMap fun entry => (range32 0 8).flatMap fun col =>
    if entry.1 &&& ((0x80 : UInt8) >>> col.toUInt8) ≠ 0 then bitPixels cx y0 (UInt32.ofNat entry.2) col scale
    else []

def stringPixels : List UInt8 → UInt32 → UInt32 → UInt32 → List Pixel
  | [], _, _, _ => []
  | c :: s, cx, y0, scale => glyphPixels c cx y0 scale ++ stringPixels s (cx + 9 * scale) y0 scale

theorem fbGlyph_eq_map (pps : UInt32) (c : UInt8) (cx y0 scale color : UInt32) :
    fbGlyph pps c cx y0 scale color = (glyphPixels c cx y0 scale).map (Pixel.write pps color) := by
  rw [fbGlyph, glyphPixels, List.map_flatMap]
  congr 1
  funext entry
  rw [List.map_flatMap]
  congr 1
  funext col
  split
  · rw [fbBit, bitPixels, List.map_flatMap]
    simp only [List.map_map]
    rfl
  · rfl

theorem fbString_eq_map (pps : UInt32) (s : List UInt8) (cx y0 scale color : UInt32) :
    fbString pps s cx y0 scale color = (stringPixels s cx y0 scale).map (Pixel.write pps color) := by
  induction s generalizing cx with
  | nil => rfl
  | cons c s ih => rw [fbString, stringPixels, List.map_append, ih, fbGlyph_eq_map]

namespace GopMode

variable (mode : GopMode)

def barPixels : List Pixel :=
  (range32 mode.barTop (mode.barTop + mode.scale)).flatMap fun yy =>
    (range32 mode.tx (mode.tx + mode.tw)).map fun xx => ⟨xx, yy⟩

def titlePixels : List Pixel := stringPixels text mode.tx mode.ty mode.scale

theorem accentBar_eq_map :
    mode.accentBar = mode.barPixels.map (Pixel.write mode.pps (pack mode.fmt 0xFF 0xB4 0x54)) := by
  rw [accentBar, barPixels, List.map_flatMap]
  simp only [List.map_map]
  rfl

theorem title_eq_map : mode.title = mode.titlePixels.map (Pixel.write mode.pps (pack mode.fmt 0x43 0xE8 0xD8)) :=
  fbString_eq_map ..

/-- The accent bar and the title lie on the visible screen. -/
def TitleOnScreen : Prop := ∀ p ∈ mode.barPixels ++ mode.titlePixels, p.column < mode.w ∧ p.row < mode.h

/-- The index of a pixel is that of its coordinates, without wrapping. -/
def TitleInPlace : Prop := ∀ p ∈ mode.barPixels ++ mode.titlePixels,
  (p.row * mode.pps + p.column).toNat = p.row.toNat * mode.pps.toNat + p.column.toNat

/-- The index of the lowest pixel of the title, at the right end of the row. -/
def lastIndex : Nat :=
  (mode.ty.toNat + 7 * mode.scale.toNat - 1) * mode.pps.toNat + (mode.tx.toNat + 132 * mode.scale.toNat - 1)

end GopMode

/-- The bit of a glyph is set. -/
def Lit (c : UInt8) (row col : Nat) : Prop := ((glyph c).getD row 0) &&& ((0x80 : UInt8) >>> UInt8.ofNat col) ≠ 0

instance (c : UInt8) (row col : Nat) : Decidable (Lit c row col) := inferInstanceAs (Decidable (_ ≠ _))

section Loops

theorem mem_range32_iff {start stop v : UInt32} :
    v ∈ range32 start stop ↔ start.toNat ≤ v.toNat ∧ v.toNat < stop.toNat := by
  refine ⟨mem_range32, fun inside => List.mem_map.mpr ⟨v.toNat, ?_, UInt32.ofNat_toNat⟩⟩
  rw [List.mem_range'_1]
  omega

/-- What a place and an offset in its square come to. -/
theorem toNat_offset {origin scale delta : UInt32} {place : Nat}
    (fits : origin.toNat + place * scale.toNat + delta.toNat < 2 ^ 32) (word : place < 2 ^ 32) :
    (origin + UInt32.ofNat place * scale + delta).toNat = origin.toNat + place * scale.toNat + delta.toNat := by
  rw [UInt32.toNat_add, UInt32.toNat_add, UInt32.toNat_mul, UInt32.toNat_ofNat', Nat.mod_eq_of_lt word]
  generalize place * scale.toNat = product at fits
  omega

theorem mem_bitPixels {cx y0 scale : UInt32} {row col : Nat} {p : Pixel} (smallRow : row < 8) (smallCol : col < 8)
    (right : cx.toNat + 8 * scale.toNat < 2 ^ 32) (bottom : y0.toNat + 8 * scale.toNat < 2 ^ 32) :
    p ∈ bitPixels cx y0 (UInt32.ofNat row) (UInt32.ofNat col) scale ↔ ∃ dx dy, dx < scale.toNat ∧ dy < scale.toNat ∧
      p.column.toNat = cx.toNat + col * scale.toNat + dx ∧ p.row.toNat = y0.toNat + row * scale.toNat + dy := by
  have square {place delta : Nat} (eight : place < 8) (below : delta < scale.toNat) :
      place * scale.toNat + delta < 8 * scale.toNat := by
    have := Nat.mul_le_mul_right scale.toNat (show place ≤ 7 by omega)
    omega
  simp only [bitPixels, List.mem_flatMap, List.mem_map, mem_range32_iff, UInt32.toNat_zero]
  constructor
  · rintro ⟨dy, ⟨-, belowDy⟩, dx, ⟨-, belowDx⟩, rfl⟩
    have column := square smallCol belowDx
    have line := square smallRow belowDy
    exact ⟨dx.toNat, dy.toNat, belowDx, belowDy, toNat_offset (by omega) (by omega), toNat_offset (by omega) (by omega)⟩
  · rintro ⟨dx, dy, belowDx, belowDy, column, line⟩
    have word := scale.toNat_lt
    have wide := square smallCol belowDx
    have high := square smallRow belowDy
    have small (d : Nat) (below : d < scale.toNat) : (UInt32.ofNat d).toNat = d := by
      rw [UInt32.toNat_ofNat']
      omega
    refine ⟨UInt32.ofNat dy, ⟨Nat.zero_le _, by rwa [small dy belowDy]⟩, UInt32.ofNat dx,
      ⟨Nat.zero_le _, by rwa [small dx belowDx]⟩, ?_⟩
    obtain ⟨x, y⟩ := p
    simp only [Pixel.mk.injEq, ← UInt32.toNat_inj]
    rw [column, line, toNat_offset (by rw [small dx belowDx]; omega) (by omega),
      toNat_offset (by rw [small dy belowDy]; omega) (by omega), small dx belowDx, small dy belowDy]
    exact ⟨rfl, rfl⟩

/-- Where a pixel of a string lies: in the square of a set bit. -/
structure OnBit (c : UInt8) (left top : Nat) (scale : UInt32) (p : Pixel) (row col dx dy : Nat) : Prop where
  lit : Lit c row col
  column : p.column.toNat = left + col * scale.toNat + dx
  line : p.row.toNat = top + row * scale.toNat + dy
  insideColumn : dx < scale.toNat
  insideLine : dy < scale.toNat

theorem mem_glyphPixels {c : UInt8} {cx y0 scale : UInt32} {p : Pixel} (right : cx.toNat + 8 * scale.toNat < 2 ^ 32)
    (bottom : y0.toNat + 8 * scale.toNat < 2 ^ 32) : p ∈ glyphPixels c cx y0 scale ↔
      ∃ row col dx dy, row < 8 ∧ col < 8 ∧ OnBit c cx.toNat y0.toNat scale p row col dx dy := by
  simp only [glyphPixels, List.mem_flatMap, List.mem_zipIdx_iff_getElem?, mem_range32_iff]
  constructor
  · rintro ⟨⟨bits, row⟩, found, col, ⟨-, smallCol⟩, member⟩
    have smallRow : row < 8 := GopMode.length_glyph c ▸ (List.getElem?_eq_some_iff.mp found).1
    split at member
    · next lit =>
      rw [← UInt32.ofNat_toNat (x := col)] at member
      obtain ⟨dx, dy, belowDx, belowDy, column, line⟩ := (mem_bitPixels smallRow smallCol right bottom).mp member
      have set : Lit c row col.toNat := by
        rw [Lit, List.getD_eq_getElem?_getD, found]
        exact lit
      exact ⟨row, col.toNat, dx, dy, smallRow, smallCol, set, column, line, belowDx, belowDy⟩
    · cases member
  · rintro ⟨row, col, dx, dy, smallRow, smallCol, lit, column, line, belowDx, belowDy⟩
    have place : (UInt32.ofNat col).toNat = col := by
      rw [UInt32.toNat_ofNat']
      omega
    have found : (glyph c)[row]? = some ((glyph c).getD row 0) := by
      have inside : row < (glyph c).length := by rwa [GopMode.length_glyph]
      rw [List.getD_eq_getElem?_getD, List.getElem?_eq_getElem inside, Option.getD_some]
    refine ⟨((glyph c).getD row 0, row), found, UInt32.ofNat col, ⟨Nat.zero_le _, place.symm ▸ smallCol⟩, ?_⟩
    rw [if_pos]
    · exact (mem_bitPixels smallRow smallCol right bottom).mpr ⟨dx, dy, belowDx, belowDy, column, line⟩
    · have byte : (UInt32.ofNat col).toUInt8 = UInt8.ofNat col := by
        apply UInt8.toNat_inj.mp
        rw [UInt32.toNat_toUInt8, place, UInt8.toNat_ofNat']
      rw [byte]
      exact lit

/-- The pixels of a string: each letter stands nine units right of the one
in front of it. -/
theorem mem_stringPixels {s : List UInt8} {cx y0 scale : UInt32} {p : Pixel}
    (right : cx.toNat + 9 * s.length * scale.toNat < 2 ^ 32) (bottom : y0.toNat + 8 * scale.toNat < 2 ^ 32) :
    p ∈ stringPixels s cx y0 scale ↔ ∃ k c row col dx dy, s[k]? = some c ∧ row < 8 ∧ col < 8 ∧
      OnBit c (cx.toNat + 9 * k * scale.toNat) y0.toNat scale p row col dx dy := by
  induction s generalizing cx with
  | nil => simp [stringPixels]
  | cons c s ih =>
    have letter : 9 * (c :: s).length * scale.toNat = 9 * scale.toNat + 9 * s.length * scale.toNat := by
      rw [List.length_cons, Nat.mul_succ, Nat.add_mul, Nat.add_comm]
    rw [letter] at right
    have next : (cx + 9 * scale).toNat = cx.toNat + 9 * scale.toNat := by
      rw [UInt32.toNat_add, UInt32.toNat_mul, show (9 : UInt32).toNat = 9 from rfl]
      omega
    have later (k : Nat) : (cx + 9 * scale).toNat + 9 * k * scale.toNat = cx.toNat + 9 * (k + 1) * scale.toNat := by
      rw [next, Nat.mul_succ, Nat.add_mul]
      omega
    rw [stringPixels, List.mem_append, mem_glyphPixels (by omega) bottom, ih (by rw [next]; omega)]
    simp only [later]
    constructor
    · rintro (⟨row, col, dx, dy, here⟩ | ⟨k, d, row, col, dx, dy, found, there⟩)
      · exact ⟨0, c, row, col, dx, dy, rfl, by simpa using here⟩
      · exact ⟨k + 1, d, row, col, dx, dy, found, there⟩
    · rintro ⟨k, d, row, col, dx, dy, found, there⟩
      cases k with
      | zero =>
        obtain rfl : c = d := Option.some.inj found
        exact .inl ⟨row, col, dx, dy, by simpa using there⟩
      | succ k => exact .inr ⟨k, d, row, col, dx, dy, found, there⟩

end Loops

namespace GopMode

variable {mode : GopMode} {p : Pixel}

/-- The eighth row of each letter is blank, and in the seventh the last letter
reaches furthest. -/
theorem lit_text : ∀ k < 15, ∀ row < 8, ∀ col < 8, Lit (text.getD k 0) row col → row ≤ 6 := by decide +kernel

theorem lit_text_last : ∀ k < 15, ∀ col < 8, Lit (text.getD k 0) 6 col → 9 * k + col ≤ 131 := by decide +kernel

theorem mem_barPixels (admitted : mode.admitted) : p ∈ mode.barPixels ↔
    (mode.tx.toNat ≤ p.column.toNat ∧ p.column.toNat < mode.tx.toNat + 135 * mode.scale.toNat) ∧
      mode.barTop.toNat ≤ p.row.toNat ∧ p.row.toNat < mode.barTop.toNat + mode.scale.toNat := by
  obtain ⟨s, scale, chosen, wide, middle, top, bar⟩ := layout admitted
  have word := mode.w.toNat_lt
  have high := mode.h.toNat_lt
  have right : (mode.tx + mode.tw).toNat = mode.tx.toNat + 135 * mode.scale.toNat := by
    rw [UInt32.toNat_add, wide, scale]
    omega
  have bottom : (mode.barTop + mode.scale).toNat = mode.barTop.toNat + mode.scale.toNat := by
    rw [UInt32.toNat_add]
    omega
  simp only [barPixels, List.mem_flatMap, List.mem_map, mem_range32_iff, right, bottom]
  constructor
  · rintro ⟨yy, row, xx, column, rfl⟩
    exact ⟨column, row⟩
  · rintro ⟨column, row⟩
    exact ⟨p.row, row, p.column, column, rfl⟩

theorem mem_titlePixels (admitted : mode.admitted) : p ∈ mode.titlePixels ↔ ∃ k row col dx dy, k < 15 ∧ row < 8 ∧
    col < 8 ∧ OnBit (text.getD k 0) (mode.tx.toNat + 9 * k * mode.scale.toNat) mode.ty.toNat mode.scale p row col dx dy := by
  obtain ⟨s, scale, chosen, wide, middle, top, bar⟩ := layout admitted
  have word := mode.w.toNat_lt
  have high := mode.h.toNat_lt
  have letters : text.length = 15 := by decide
  rw [titlePixels, mem_stringPixels (by rw [letters]; omega) (by omega)]
  constructor
  · rintro ⟨k, c, row, col, dx, dy, found, there⟩
    obtain ⟨inside, rfl⟩ := List.getElem?_eq_some_iff.mp found
    refine ⟨k, row, col, dx, dy, letters ▸ inside, ?_⟩
    rw [List.getD_eq_getElem?_getD, List.getElem?_eq_getElem inside, Option.getD_some]
    exact there
  · rintro ⟨k, row, col, dx, dy, inside, there⟩
    have inside : k < text.length := letters ▸ inside
    refine ⟨k, text[k], row, col, dx, dy, List.getElem?_eq_getElem inside, ?_⟩
    rw [List.getD_eq_getElem?_getD, List.getElem?_eq_getElem inside, Option.getD_some] at there
    exact there

/-- Where the pixels of the bar and the title can lie: above the last row, or
in it and not beyond the last pixel. -/
theorem pixel_bounds (admitted : mode.admitted) (member : p ∈ mode.barPixels ++ mode.titlePixels) :
    p.column.toNat < mode.tx.toNat + 135 * mode.scale.toNat ∧
      (p.row.toNat + 1 < mode.ty.toNat + 7 * mode.scale.toNat ∨
        p.row.toNat + 1 = mode.ty.toNat + 7 * mode.scale.toNat ∧
          p.column.toNat < mode.tx.toNat + 132 * mode.scale.toNat) := by
  obtain ⟨-, -, wide, high⟩ := bounds_of_admitted admitted
  obtain ⟨s, scale, chosen, wideText, middle, top, bar⟩ := layout admitted
  rcases List.mem_append.mp member with inBar | inTitle
  · obtain ⟨column, row⟩ := (mem_barPixels admitted).mp inBar
    omega
  · obtain ⟨k, row, col, dx, dy, letter, smallRow, smallCol, bit⟩ := (mem_titlePixels admitted).mp inTitle
    obtain ⟨lit, column, line, belowDx, belowDy⟩ := bit
    have above := lit_text k letter row smallRow col smallCol lit
    have last : row = 6 → 9 * k + col ≤ 131 := by
      rintro rfl
      exact lit_text_last k letter col smallCol lit
    rw [scale] at *
    rcases chosen with ⟨rfl, -⟩ | ⟨rfl, -⟩ <;> omega

theorem toNat_index {row column pps : UInt32} (fits : row.toNat * pps.toNat + column.toNat < 2 ^ 32) :
    (row * pps + column).toNat = row.toNat * pps.toNat + column.toNat := by
  rw [UInt32.toNat_add, UInt32.toNat_mul]
  generalize row.toNat * pps.toNat = product at fits
  omega

/-- The bar is as wide as the text with its spacing, and starts in the first
column of a screen that is too narrow. -/
theorem onScreen_iff (admitted : mode.admitted) : mode.TitleOnScreen ↔ 135 * mode.scale.toNat ≤ mode.w.toNat := by
  obtain ⟨-, -, wide, high⟩ := bounds_of_admitted admitted
  obtain ⟨s, scale, chosen, wideText, middle, top, bar⟩ := layout admitted
  have word := mode.scale.toNat_lt
  constructor
  · intro onScreen
    by_contra narrow
    have corner : (UInt32.ofNat (135 * mode.scale.toNat - 1)).toNat = 135 * mode.scale.toNat - 1 := by
      rw [UInt32.toNat_ofNat']
      omega
    have inBar : ⟨UInt32.ofNat (135 * mode.scale.toNat - 1), mode.barTop⟩ ∈ mode.barPixels :=
      (mem_barPixels admitted).mpr (by dsimp only; omega)
    have column := UInt32.lt_iff_toNat_lt.mp (onScreen _ (List.mem_append_left _ inBar)).1
    rw [corner] at column
    omega
  · intro fits p member
    obtain ⟨column, row⟩ := pixel_bounds admitted member
    rw [UInt32.lt_iff_toNat_lt, UInt32.lt_iff_toNat_lt]
    omega

/-- The lowest pixel of the title has the largest index. -/
theorem inPlace_iff (admitted : mode.admitted) (fits : 135 * mode.scale.toNat ≤ mode.w.toNat) :
    mode.TitleInPlace ↔ mode.lastIndex < 2 ^ 32 := by
  obtain ⟨width, -, wide, high⟩ := bounds_of_admitted admitted
  obtain ⟨s, scale, chosen, wideText, middle, top, bar⟩ := layout admitted
  have wordW := mode.w.toNat_lt
  have wordH := mode.h.toNat_lt
  have small {n : Nat} (below : n < 2 ^ 32) : (UInt32.ofNat n).toNat = n := by
    rw [UInt32.toNat_ofNat', Nat.mod_eq_of_lt below]
  constructor
  · intro inPlace
    have column : (UInt32.ofNat (mode.tx.toNat + 132 * s - 1)).toNat = mode.tx.toNat + 132 * s - 1 := small (by omega)
    have row : (UInt32.ofNat (mode.ty.toNat + 7 * s - 1)).toNat = mode.ty.toNat + 7 * s - 1 := small (by omega)
    have last : ⟨UInt32.ofNat (mode.tx.toNat + 132 * s - 1), UInt32.ofNat (mode.ty.toNat + 7 * s - 1)⟩ ∈
        mode.titlePixels := by
      refine (mem_titlePixels admitted).mpr ⟨14, 6, 5, s - 1, s - 1, by decide, by decide, by decide, by decide +kernel,
        ?_, ?_, ?_, ?_⟩
      · rw [column, scale]
        omega
      · rw [row, scale]
        omega
      · omega
      · omega
    have index := inPlace _ (List.mem_append_right _ last)
    rw [column, row] at index
    rw [lastIndex, scale, ← index]
    exact UInt32.toNat_lt _
  · intro lastFits p member
    apply toNat_index
    obtain ⟨column, above | ⟨lowest, left⟩⟩ := pixel_bounds admitted member
    · calc p.row.toNat * mode.pps.toNat + p.column.toNat
          < p.row.toNat * mode.pps.toNat + mode.pps.toNat := by omega
        _ = (p.row.toNat + 1) * mode.pps.toNat := (Nat.succ_mul _ _).symm
        _ ≤ (mode.ty.toNat + 7 * mode.scale.toNat - 1) * mode.pps.toNat := Nat.mul_le_mul_right _ (by omega)
        _ ≤ mode.lastIndex := Nat.le_add_right _ _
        _ < 2 ^ 32 := lastFits
    · have row : p.row.toNat = mode.ty.toNat + 7 * mode.scale.toNat - 1 := by omega
      refine Nat.lt_of_le_of_lt ?_ lastFits
      rw [row, lastIndex]
      omega

theorem fits_iff (admitted : mode.admitted) : 135 * mode.scale.toNat ≤ mode.w.toNat ↔
    540 ≤ mode.w.toNat ∧ mode.w.toNat < 1024 ∨ 1080 ≤ mode.w.toNat := by
  obtain ⟨s, scale, chosen, -⟩ := layout admitted
  omega

/-- The bar and the title are drawn inside the visible screen exactly on the
widths that the text fits; each pixel is then stored at its coordinates
as long as the last index fits its word. -/
theorem title_on_screen_iff (admitted : mode.admitted) :
    (mode.TitleOnScreen ↔ 540 ≤ mode.w.toNat ∧ mode.w.toNat < 1024 ∨ 1080 ≤ mode.w.toNat) ∧
    (mode.TitleOnScreen ∧ mode.TitleInPlace ↔
      (540 ≤ mode.w.toNat ∧ mode.w.toNat < 1024 ∨ 1080 ≤ mode.w.toNat) ∧ mode.lastIndex < 2 ^ 32) := by
  have widths := (onScreen_iff admitted).trans (fits_iff admitted)
  refine ⟨widths, ?_⟩
  rw [widths]
  exact and_congr_right fun fits => inPlace_iff admitted ((fits_iff admitted).mpr fits)

theorem title_on_screen_hd : (GopMode.mk 1920 1080 1920 1 0x80000000 8294400).TitleOnScreen ∧
    (GopMode.mk 1920 1080 1920 1 0x80000000 8294400).TitleInPlace :=
  (@title_on_screen_iff (GopMode.mk 1920 1080 1920 1 0x80000000 8294400) (by decide)).2.mpr
    ⟨.inr (by decide), by decide⟩

/-- On a screen of 1024 by 768 the large letters do not fit. -/
theorem title_off_screen_xga : (GopMode.mk 1024 768 1024 1 0x80000000 3145728).admitted ∧
    ¬ (GopMode.mk 1024 768 1024 1 0x80000000 3145728).TitleOnScreen := by
  have admitted : (GopMode.mk 1024 768 1024 1 0x80000000 3145728).admitted := by decide
  refine ⟨admitted, fun onScreen => ?_⟩
  have fits := (onScreen_iff admitted).mp onScreen
  revert fits
  decide

end GopMode

end Asolaria.Boot
