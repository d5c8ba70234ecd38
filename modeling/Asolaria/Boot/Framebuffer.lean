import Asolaria.BootLines.StatusLine

namespace Asolaria.Boot
open Library BootLines

/-- What `efi_main` reads of the graphics mode. -/
structure GopMode where
  w : UInt32
  h : UInt32
  pps : UInt32
  fmt : UInt32
  fb : UInt64
  fbSize : UInt64
  deriving DecidableEq, Repr

def pixelFormat : UInt32 → PixelFormat
  | 0 => .rgb
  | 1 => .bgr
  | 2 => .bitmask
  | 3 => .bltOnly
  | _ => .unknown

/-- The two saturating products. -/
def GopMode.minFramebufferBytes (mode : GopMode) : Nat :=
  min (min (mode.pps.toNat * mode.h.toNat) usizeMax * 4) usizeMax

def GopMode.fbLayoutVerified (mode : GopMode) : Bool :=
  decide (mode.w ≤ mode.pps) && decide (mode.minFramebufferBytes ≤ mode.fbSize.toNat)

/-- The guard in front of the painting. -/
def GopMode.admitted (mode : GopMode) : Bool :=
  mode.fb != 0 && mode.fbLayoutVerified && (pixelFormat mode.fmt).isDirectFramebuffer && decide (320 ≤ mode.w) &&
    decide (200 ≤ mode.h)

def pack (fmt r g b : UInt32) : UInt32 :=
  if fmt = 0 then (b <<< 16) ||| (g <<< 8) ||| r else (r <<< 16) ||| (g <<< 8) ||| b

def glyph (c : UInt8) : List UInt8 :=
  if c = 65 then [0x38, 0x6C, 0xC6, 0xC6, 0xFE, 0xC6, 0xC6, 0x00]
  else if c = 83 then [0x7C, 0xC6, 0xC0, 0x7C, 0x06, 0xC6, 0x7C, 0x00]
  else if c = 79 then [0x7C, 0xC6, 0xC6, 0xC6, 0xC6, 0xC6, 0x7C, 0x00]
  else if c = 76 then [0xC0, 0xC0, 0xC0, 0xC0, 0xC0, 0xC6, 0xFE, 0x00]
  else if c = 82 then [0xFC, 0xC6, 0xC6, 0xFC, 0xD8, 0xCC, 0xC6, 0x00]
  else if c = 73 then [0x7C, 0x18, 0x18, 0x18, 0x18, 0x18, 0x7C, 0x00]
  else List.replicate 8 0

/-- A store through the framebuffer pointer, by the index of its pixel. -/
structure PixelWrite where
  index : Nat
  color : UInt32
  deriving DecidableEq, Repr

/-- The numbers of a loop over `start..stop`. -/
def range32 (start stop : UInt32) : List UInt32 :=
  (List.range' start.toNat (stop.toNat - start.toNat)).map UInt32.ofNat

/-- `fb_fill`. The pointer to a row is moved on by the column. -/
def fbFill (pps w h color : UInt32) : List PixelWrite :=
  (range32 0 h).flatMap fun y => (range32 0 w).map fun x => ⟨(y * pps).toNat + x.toNat, color⟩

/-- The loops over the square of a set bit. -/
def fbBit (pps cx y0 row col scale color : UInt32) : List PixelWrite :=
  (range32 0 scale).flatMap fun dy => (range32 0 scale).map fun dx =>
    let px := cx + col * scale + dx
    let py := y0 + row * scale + dy
    ⟨(py * pps + px).toNat, color⟩

/-- The loops over the rows and columns of a glyph. -/
def fbGlyph (pps : UInt32) (c : UInt8) (cx y0 scale color : UInt32) : List PixelWrite :=
  (glyph c).zipIdx.flatMap fun entry => (range32 0 8).flatMap fun col =>
    if entry.1 &&& ((0x80 : UInt8) >>> col.toUInt8) ≠ 0 then
      fbBit pps cx y0 (UInt32.ofNat entry.2) col scale color
    else []

/-- `fb_string`, with the column of the next glyph. -/
def fbString (pps : UInt32) : List UInt8 → UInt32 → UInt32 → UInt32 → UInt32 → List PixelWrite
  | [], _, _, _, _ => []
  | c :: s, cx, y0, scale, color => fbGlyph pps c cx y0 scale color ++ fbString pps s (cx + 9 * scale) y0 scale color

def saturatingSub (a b : UInt32) : UInt32 := if a < b then 0 else a - b

namespace GopMode

variable (mode : GopMode)

def text : List UInt8 := utf8 "ASOLARIA ASI OS"

def scale : UInt32 := if mode.w ≥ 1024 then 8 else 4

def tw : UInt32 := UInt32.ofNat text.length * 9 * mode.scale

def tx : UInt32 := saturatingSub mode.w mode.tw / 2

def ty : UInt32 := mode.h / 2 - 4 * mode.scale

def barTop : UInt32 := saturatingSub mode.ty (3 * mode.scale)

/-- The background. -/
def background : List PixelWrite := fbFill mode.pps mode.w mode.h (pack mode.fmt 0x05 0x07 0x0D)

/-- The accent bar above the title. -/
def accentBar : List PixelWrite :=
  (range32 mode.barTop (mode.barTop + mode.scale)).flatMap fun yy =>
    (range32 mode.tx (mode.tx + mode.tw)).map fun xx =>
      ⟨(yy * mode.pps + xx).toNat, pack mode.fmt 0xFF 0xB4 0x54⟩

def title : List PixelWrite :=
  fbString mode.pps text mode.tx mode.ty mode.scale (pack mode.fmt 0x43 0xE8 0xD8)

/-- Everything that is painted. -/
def paint : List PixelWrite := if mode.admitted then mode.background ++ mode.accentBar ++ mode.title else []

end GopMode

section Bounds

theorem mem_range32 {start stop v : UInt32} (member : v ∈ range32 start stop) :
    start.toNat ≤ v.toNat ∧ v.toNat < stop.toNat := by
  obtain ⟨n, inside, rfl⟩ := List.mem_map.mp member
  rw [List.mem_range'_1] at inside
  have word := stop.toNat_lt
  rw [UInt32.toNat_ofNat', Nat.mod_eq_of_lt (by omega)]
  omega

/-- A sum or a product of words is at most what it is without wrapping. -/
theorem toNat_add_le (a b : UInt32) : (a + b).toNat ≤ a.toNat + b.toNat := by
  rw [UInt32.toNat_add]
  exact Nat.mod_le _ _

theorem toNat_mul_le (a b : UInt32) : (a * b).toNat ≤ a.toNat * b.toNat := by
  rw [UInt32.toNat_mul]
  exact Nat.mod_le _ _

theorem toNat_ofNat_le (n : Nat) : (UInt32.ofNat n).toNat ≤ n := by
  rw [UInt32.toNat_ofNat']
  exact Nat.mod_le _ _

theorem toNat_saturatingSub (a b : UInt32) : (saturatingSub a b).toNat = a.toNat - b.toNat := by
  rw [saturatingSub]
  split
  · next below =>
    have := UInt32.lt_iff_toNat_lt.mp below
    rw [UInt32.toNat_zero]
    omega
  · next above => exact UInt32.toNat_sub_of_le _ _ (UInt32.not_lt.mp above)

/-- Two rows of slack make room for a line that runs over the end of its row
once. -/
theorem index_lt {pps h x y : Nat} (column : x < 2 * pps) (row : y + 2 ≤ h) : y * pps + x < pps * h :=
  calc y * pps + x < y * pps + 2 * pps := Nat.add_lt_add_left column _
    _ = (y + 2) * pps := (Nat.add_mul y 2 pps).symm
    _ ≤ h * pps := Nat.mul_le_mul_right pps row
    _ = pps * h := Nat.mul_comm h pps

/-- A pixel of the mode lies in the framebuffer, also where the size that is
asked for has been cut. -/
theorem index_lt_fbSize {mode : GopMode} {index : Nat} (layout : mode.minFramebufferBytes ≤ mode.fbSize.toNat)
    (pixel : index < mode.pps.toNat * mode.h.toNat) (small : index < 2 ^ 33) : index < mode.fbSize.toNat / 4 := by
  rw [GopMode.minFramebufferBytes, usizeMax] at layout
  generalize mode.pps.toNat * mode.h.toNat = pixels at layout pixel
  omega

end Bounds

namespace GopMode

variable {mode : GopMode}

theorem bounds_of_admitted (admitted : mode.admitted) : mode.w.toNat ≤ mode.pps.toNat ∧
    mode.minFramebufferBytes ≤ mode.fbSize.toNat ∧ 320 ≤ mode.w.toNat ∧ 200 ≤ mode.h.toNat := by
  simp only [GopMode.admitted, fbLayoutVerified, Bool.and_eq_true, decide_eq_true_eq,
    UInt32.le_iff_toNat_le] at admitted
  obtain ⟨⟨⟨⟨_, width, size⟩, _⟩, wide⟩, high⟩ := admitted
  exact ⟨width, size, wide, high⟩

/-- The scale, and the numbers that are computed from it. None of them wraps. -/
theorem layout (admitted : mode.admitted) : ∃ s : Nat, mode.scale.toNat = s ∧
    (s = 4 ∧ mode.w.toNat < 1024 ∨ s = 8 ∧ 1024 ≤ mode.w.toNat) ∧ mode.tw.toNat = 135 * s ∧
    mode.tx.toNat = (mode.w.toNat - 135 * s) / 2 ∧ mode.ty.toNat = mode.h.toNat / 2 - 4 * s ∧
    mode.barTop.toNat = mode.ty.toNat - 3 * s := by
  obtain ⟨-, -, wide, high⟩ := bounds_of_admitted admitted
  have letters : UInt32.ofNat text.length * 9 = 135 := by decide
  have chosen : mode.scale.toNat = 4 ∧ mode.w.toNat < 1024 ∨ mode.scale.toNat = 8 ∧ 1024 ≤ mode.w.toNat := by
    rw [scale]
    split
    · next large => exact .inr ⟨rfl, UInt32.le_iff_toNat_le.mp large⟩
    · next small => exact .inl ⟨rfl, UInt32.lt_iff_toNat_lt.mp (UInt32.not_le.mp small)⟩
  have units (n : UInt32) (few : n.toNat ≤ 135) : (n * mode.scale).toNat = n.toNat * mode.scale.toNat := by
    have product := Nat.mul_le_mul_right mode.scale.toNat few
    rw [UInt32.toNat_mul]
    generalize n.toNat * mode.scale.toNat = size at product
    omega
  have wideText : mode.tw.toNat = 135 * mode.scale.toNat := by
    rw [tw, letters, units 135 (Nat.le_refl 135)]
    rfl
  have half : (mode.h / 2).toNat = mode.h.toNat / 2 := UInt32.toNat_div _ _
  have middle : mode.tx.toNat = (mode.w.toNat - mode.tw.toNat) / 2 := by
    rw [tx, UInt32.toNat_div, toNat_saturatingSub]
    rfl
  have four : (4 * mode.scale).toNat = 4 * mode.scale.toNat := units 4 (by decide)
  have top : mode.ty.toNat = mode.h.toNat / 2 - 4 * mode.scale.toNat := by
    rw [ty, UInt32.toNat_sub_of_le _ _ (UInt32.le_iff_toNat_le.mpr (by omega)), half, four]
  have bar : mode.barTop.toNat = mode.ty.toNat - 3 * mode.scale.toNat := by
    rw [barTop, toNat_saturatingSub, units 3 (by decide)]
    rfl
  exact ⟨mode.scale.toNat, rfl, chosen, wideText, wideText ▸ middle, top, bar⟩

/-- The room that the scale leaves. -/
theorem placed (admitted : mode.admitted) : ∃ s : Nat, mode.scale.toNat = s ∧ 4 * s ≤ mode.h.toNat / 2 ∧
    mode.tw.toNat = 135 * s ∧ mode.tx.toNat + 135 * s ≤ 2 * mode.pps.toNat ∧ mode.barTop.toNat ≤ mode.ty.toNat ∧
    mode.ty.toNat + 8 * s + 2 ≤ mode.h.toNat := by
  obtain ⟨width, -, wide, high⟩ := bounds_of_admitted admitted
  obtain ⟨s, scale, chosen, wideText, middle, top, bar⟩ := layout admitted
  exact ⟨s, scale, by omega, wideText, by omega, by omega, by omega⟩

/-- A pixel of the rectangle of the mode. -/
theorem inside_of_le (admitted : mode.admitted) {index x y : Nat} (bound : index ≤ y * mode.pps.toNat + x)
    (column : x < 2 * mode.pps.toNat) (row : y + 2 ≤ mode.h.toNat) (small : index < 2 ^ 33) :
    index < mode.fbSize.toNat / 4 := by
  obtain ⟨-, layout, -, -⟩ := bounds_of_admitted admitted
  exact index_lt_fbSize layout (Nat.lt_of_le_of_lt bound (index_lt column row)) small

theorem background_inside (admitted : mode.admitted) :
    ∀ write ∈ mode.background, write.index < mode.fbSize.toNat / 4 := by
  intro write member
  obtain ⟨width, layout, wide, high⟩ := bounds_of_admitted admitted
  obtain ⟨y, inY, member⟩ := List.mem_flatMap.mp member
  obtain ⟨x, inX, rfl⟩ := List.mem_map.mp member
  obtain ⟨-, belowY⟩ := mem_range32 inY
  obtain ⟨-, belowX⟩ := mem_range32 inX
  have product := toNat_mul_le y mode.pps
  have word := (y * mode.pps).toNat_lt
  have column := x.toNat_lt
  refine index_lt_fbSize layout ?_ (by dsimp only; omega)
  calc (y * mode.pps).toNat + x.toNat < y.toNat * mode.pps.toNat + mode.pps.toNat := by omega
    _ = (y.toNat + 1) * mode.pps.toNat := (Nat.succ_mul _ _).symm
    _ ≤ mode.h.toNat * mode.pps.toNat := Nat.mul_le_mul_right _ belowY
    _ = mode.pps.toNat * mode.h.toNat := Nat.mul_comm _ _

/-- The index of a pixel in words, against the index without wrapping. -/
theorem index_le (px py : UInt32) : (py * mode.pps + px).toNat ≤ py.toNat * mode.pps.toNat + px.toNat :=
  Nat.le_trans (toNat_add_le _ _) (Nat.add_le_add_right (toNat_mul_le _ _) _)

theorem accentBar_inside (admitted : mode.admitted) :
    ∀ write ∈ mode.accentBar, write.index < mode.fbSize.toNat / 4 := by
  intro write member
  obtain ⟨s, scale, half, wide, columns, bar, rows⟩ := placed admitted
  obtain ⟨yy, inY, member⟩ := List.mem_flatMap.mp member
  obtain ⟨xx, inX, rfl⟩ := List.mem_map.mp member
  obtain ⟨-, belowY⟩ := mem_range32 inY
  obtain ⟨-, belowX⟩ := mem_range32 inX
  have bottom := toNat_add_le mode.barTop mode.scale
  have right := toNat_add_le mode.tx mode.tw
  have word := (yy * mode.pps + xx).toNat_lt
  exact inside_of_le admitted (index_le xx yy) (by omega) (by omega) (by dsimp only; omega)

theorem length_glyph (c : UInt8) : (glyph c).length = 8 := by
  unfold glyph
  repeat' split
  all_goals rfl

/-- A glyph stays in a square of eight units. -/
theorem fbGlyph_box {pps cx y0 scale color : UInt32} {c : UInt8} :
    ∀ write ∈ fbGlyph pps c cx y0 scale color, ∃ px py : UInt32, write.index = (py * pps + px).toNat ∧
      px.toNat < cx.toNat + 8 * scale.toNat ∧ py.toNat < y0.toNat + 8 * scale.toNat := by
  intro write member
  obtain ⟨entry, row, member⟩ := List.mem_flatMap.mp member
  obtain ⟨col, inCol, member⟩ := List.mem_flatMap.mp member
  have rowBound : entry.2 < 8 := by
    have inside := (List.mem_zipIdx row).2.1
    rwa [length_glyph, Nat.zero_add] at inside
  obtain ⟨-, colBound⟩ := mem_range32 inCol
  split at member
  · obtain ⟨dy, inDy, member⟩ := List.mem_flatMap.mp member
    obtain ⟨dx, inDx, rfl⟩ := List.mem_map.mp member
    obtain ⟨-, belowDy⟩ := mem_range32 inDy
    obtain ⟨-, belowDx⟩ := mem_range32 inDx
    -- the offset of the bit, and the one of the pixel in its square
    have offset {place delta origin : UInt32} (eight : place.toNat < 8) (below : delta.toNat < scale.toNat) :
        (origin + place * scale + delta).toNat < origin.toNat + 8 * scale.toNat := by
      have product := toNat_mul_le place scale
      have square := Nat.mul_le_mul_right scale.toNat (show place.toNat ≤ 7 by omega)
      have first := toNat_add_le origin (place * scale)
      have second := toNat_add_le (origin + place * scale) delta
      omega
    have rowWord := toNat_ofNat_le entry.2
    exact ⟨_, _, rfl, offset colBound belowDx, offset (by omega) belowDy⟩
  · cases member

/-- The string stays in its box: nine units to the right for each letter. -/
theorem fbString_box {pps y0 scale color : UInt32} {s : List UInt8} {cx : UInt32} :
    ∀ write ∈ fbString pps s cx y0 scale color, ∃ px py : UInt32, write.index = (py * pps + px).toNat ∧
      px.toNat < cx.toNat + 9 * scale.toNat * s.length ∧ py.toNat < y0.toNat + 8 * scale.toNat := by
  induction s generalizing cx with
  | nil =>
    intro write member
    cases member
  | cons c s ih =>
    intro write member
    rw [List.length_cons, Nat.mul_succ]
    rcases List.mem_append.mp member with here | behind
    · obtain ⟨px, py, index, column, row⟩ := fbGlyph_box write here
      exact ⟨px, py, index, by omega, row⟩
    · obtain ⟨px, py, index, column, row⟩ := ih write behind
      have moved := toNat_add_le cx (9 * scale)
      have width := toNat_mul_le 9 scale
      rw [show (9 : UInt32).toNat = 9 from rfl] at width
      exact ⟨px, py, index, by omega, row⟩

theorem title_inside (admitted : mode.admitted) : ∀ write ∈ mode.title, write.index < mode.fbSize.toNat / 4 := by
  intro write member
  obtain ⟨s, scale, half, wide, columns, bar, rows⟩ := placed admitted
  obtain ⟨px, py, index, column, row⟩ := fbString_box write member
  have letters : text.length = 15 := by decide
  have word := (py * mode.pps + px).toNat_lt
  rw [letters] at column
  rw [index]
  exact inside_of_le admitted (index_le px py) (by omega) (by omega) (by omega)

/-- On every admitted mode the title has room below the middle of the screen,
and everything is painted inside the framebuffer. -/
theorem paint_in_range (admitted : mode.admitted) :
    (4 * mode.scale).toNat ≤ (mode.h / 2).toNat ∧ (∀ write ∈ mode.background, write.index < mode.fbSize.toNat / 4) ∧
      (∀ write ∈ mode.accentBar, write.index < mode.fbSize.toNat / 4) ∧
      ∀ write ∈ mode.title, write.index < mode.fbSize.toNat / 4 := by
  refine ⟨?_, background_inside admitted, accentBar_inside admitted, title_inside admitted⟩
  obtain ⟨s, scale, half, -⟩ := placed admitted
  have product := toNat_mul_le 4 mode.scale
  rw [scale, show (4 : UInt32).toNat = 4 from rfl] at product
  rw [show (mode.h / 2).toNat = mode.h.toNat / 2 from UInt32.toNat_div _ _]
  omega

/-- The smallest mode that is admitted: its lines are shorter than the title. -/
theorem paint_in_range_smallest :
    ((GopMode.mk 320 200 320 1 0x80000000 256000).title.all fun write => decide (write.index < 64000)) = true := by
  refine List.all_eq_true.mpr fun write member => decide_eq_true ?_
  exact (@paint_in_range (GopMode.mk 320 200 320 1 0x80000000 256000) (by decide)).2.2.2 write member

end GopMode

end Asolaria.Boot
