import Asolaria.Library.Fnv1a
import Asolaria.Library.Guard
import Mathlib.Data.List.Basic

namespace Asolaria.BusFabric
open Library

def behcs1024AlphabetSize : UInt32 := 1024

def prefixTreeMaxDepth : UInt32 := 20

inductive BusFabricErr
  | labelTooDeep
  | glyphOutOfRange
  | branchEmpty
  | unimplemented
  deriving DecidableEq, Repr

/-- The glyph indices of the levels, the most significant one first. -/
structure PortLabel where
  levels : List UInt16
  deriving DecidableEq, Repr

namespace PortLabel

def fromLevels (levels : List UInt16) : Except BusFabricErr PortLabel :=
  if UInt32.ofNat levels.length > prefixTreeMaxDepth then .error .labelTooDeep
  else if levels.any fun g => decide (g.toUInt32 ≥ behcs1024AlphabetSize) then .error .glyphOutOfRange
  else .ok ⟨levels⟩

def depth (label : PortLabel) : Nat := label.levels.length

def canonicalGlyphBytes (label : PortLabel) : List UInt8 :=
  label.levels.flatMap fun (g : UInt16) => [(g >>> 8).toUInt8, (g &&& 0xFF).toUInt8]

end PortLabel

def reservedHandleZero : UInt64 := 0

/-- The loop of `fnv1a_64`. -/
def fnv1a64 (bytes : List UInt8) : UInt64 :=
  bytes.foldl (fun h b => (h ^^^ b.toUInt64) * 0x00000100000001b3) 0xcbf29ce484222325

def resolveLabel (label : PortLabel) : Except BusFabricErr UInt64 :=
  if UInt32.ofNat label.depth > prefixTreeMaxDepth then .error .labelTooDeep
  else if label.levels.any fun g => decide (g.toUInt32 ≥ behcs1024AlphabetSize) then .error .glyphOutOfRange
  else
    let bytes := label.canonicalGlyphBytes
    let h := fnv1a64 bytes
    .ok (if h = reservedHandleZero ∧ bytes ≠ [] then 0x8000000000000000 else h)

def prefixTreeWalk (label : PortLabel) : Except BusFabricErr UInt64 := resolveLabel label

def labelForHandle (_handle : UInt64) : Except BusFabricErr PortLabel := .error .branchEmpty

/-- What `from_levels` lets through. The field is public, so a label can also
be made without it. -/
structure PortLabel.Valid (label : PortLabel) : Prop where
  depth : label.depth ≤ 20
  glyphs : ∀ g ∈ label.levels, g < 1024

theorem fnv1a64_eq_hash (bytes : List UInt8) : fnv1a64 bytes = Fnv1a.hash bytes := rfl

theorem any_out_of_range_iff {levels : List UInt16} :
    (levels.any fun g => decide (g.toUInt32 ≥ behcs1024AlphabetSize)) = true ↔ ¬ ∀ g ∈ levels, g < 1024 := by
  have range (g : UInt16) : g.toUInt32 ≥ behcs1024AlphabetSize ↔ ¬ g < 1024 := by
    rw [ge_iff_le, UInt32.le_iff_toNat_le, UInt16.lt_iff_toNat_lt, Nat.not_lt]
    exact Iff.rfl
  simp only [List.any_eq_true, decide_eq_true_eq, range, not_forall, exists_prop]

theorem not_too_deep {depth : Nat} (shallow : depth ≤ 20) : ¬ UInt32.ofNat depth > prefixTreeMaxDepth := by
  rw [gt_iff_lt, UInt32.not_lt, UInt32.le_iff_toNat_le, UInt32.toNat_ofNat',
    show prefixTreeMaxDepth.toNat = 20 from rfl]
  omega

/-- A valid label passes both checks. -/
theorem PortLabel.Valid.resolveLabel_eq {label : PortLabel} (valid : label.Valid) : resolveLabel label =
    .ok (if fnv1a64 label.canonicalGlyphBytes = 0 ∧ label.canonicalGlyphBytes ≠ [] then 0x8000000000000000
      else fnv1a64 label.canonicalGlyphBytes) := by
  have inRange := not_not.mpr valid.glyphs
  rw [← any_out_of_range_iff] at inRange
  rw [resolveLabel, if_neg (not_too_deep valid.depth), if_neg inRange]
  rfl

/-- Lists of one length that differ at one place only. -/
theorem split_at_difference {α : Type*} {a b : List α} (length : a.length = b.length)
    (one : ∃! i : Nat, a[i]? ≠ b[i]?) : ∃ front g g' back, g ≠ g' ∧ a = front ++ g :: back ∧ b = front ++ g' :: back := by
  obtain ⟨i, differ, only⟩ := one
  have same (j : Nat) (other : j ≠ i) : a[j]? = b[j]? := by
    by_contra different
    exact other (only j different)
  have inside : i < a.length := by
    by_contra outside
    exact differ (by rw [List.getElem?_eq_none (by omega), List.getElem?_eq_none (by omega)])
  have front : a.take i = b.take i := by
    refine List.ext_getElem? fun j => ?_
    rw [List.getElem?_take, List.getElem?_take]
    split
    · next before => exact same j (by omega)
    · rfl
  have back : a.drop (i + 1) = b.drop (i + 1) := by
    refine List.ext_getElem? fun j => ?_
    rw [List.getElem?_drop, List.getElem?_drop]
    exact same _ (by omega)
  refine ⟨a.take i, a[i], b[i], a.drop (i + 1), ?_, ?_, ?_⟩
  · intro equal
    exact differ (by rw [List.getElem?_eq_getElem inside, List.getElem?_eq_getElem (length ▸ inside), equal])
  · rw [← List.drop_eq_getElem_cons inside, List.take_append_drop]
  · rw [front, back, ← List.drop_eq_getElem_cons (length ▸ inside), List.take_append_drop]

theorem glyphBytes_inj {g g' : UInt16} (high : (g >>> 8).toUInt8 = (g' >>> 8).toUInt8)
    (low : (g &&& 0xFF).toUInt8 = (g' &&& 0xFF).toUInt8) : g = g' := by
  have upper (g : UInt16) : (g >>> 8).toUInt8.toNat = g.toNat / 256 := by
    have small := g.toNat_lt
    rw [UInt16.toNat_toUInt8, UInt16.toNat_shiftRight, show (8 : UInt16).toNat % 16 = 8 from rfl,
      Nat.shiftRight_eq_div_pow]
    omega
  have lower (g : UInt16) : (g &&& 0xFF).toUInt8.toNat = g.toNat % 256 := by
    rw [UInt16.toNat_toUInt8, UInt16.toNat_and, show (0xFF : UInt16).toNat = 2 ^ 8 - 1 from rfl,
      Nat.and_two_pow_sub_one_eq_mod, Nat.mod_mod]
  have quotient := congrArg UInt8.toNat high
  have remainder := congrArg UInt8.toNat low
  rw [upper, upper] at quotient
  rw [lower, lower] at remainder
  apply UInt16.toNat_inj.mp
  omega

/-- Labels that differ in one level have hashes that differ below the top
bit. -/
theorem hash_apart {a b : PortLabel} (depth : a.depth = b.depth) (one : ∃! i : Nat, a.levels[i]? ≠ b.levels[i]?) :
    (fnv1a64 a.canonicalGlyphBytes).toNat % 2 ^ 63 ≠ (fnv1a64 b.canonicalGlyphBytes).toNat % 2 ^ 63 := by
  obtain ⟨front, g, g', back, different, left, right⟩ := split_at_difference depth one
  intro same
  rw [fnv1a64_eq_hash, fnv1a64_eq_hash, PortLabel.canonicalGlyphBytes, PortLabel.canonicalGlyphBytes, left, right,
    Fnv1a.hash, Fnv1a.hash, List.flatMap_append, List.flatMap_append, List.flatMap_cons, List.flatMap_cons,
    List.foldl_append, List.foldl_append, List.foldl_append, List.foldl_append,
    Fnv1a.foldl_step_mod_iff _ (by decide)] at same
  obtain ⟨high, low⟩ := Fnv1a.two_steps_inj same
  exact different (glyphBytes_inj high low)

/-- The handle is the hash, up to the top bit. -/
theorem PortLabel.Valid.handle {label : PortLabel} (valid : label.Valid) : ∃ handle, resolveLabel label = .ok handle ∧
    handle.toNat % 2 ^ 63 = (fnv1a64 label.canonicalGlyphBytes).toNat % 2 ^ 63 ∧
    (label.levels ≠ [] → handle ≠ reservedHandleZero) := by
  refine ⟨_, valid.resolveLabel_eq, ?_, fun filled => ?_⟩
  · split
    · next folded =>
      rw [folded.1]
      rfl
    · rfl
  · have bytes : label.canonicalGlyphBytes ≠ [] := by
      obtain ⟨g, rest, levels⟩ := List.exists_cons_of_ne_nil filled
      rw [canonicalGlyphBytes, levels, List.flatMap_cons]
      exact List.cons_ne_nil _ _
    split
    · decide
    · next kept => exact fun zero => kept ⟨zero, bytes⟩

/-- Valid labels of one depth that differ in exactly one level have different
handles, and no label but the empty one has the reserved handle. -/
theorem handles_differ :
    (∀ a b : PortLabel, a.Valid → b.Valid → a.depth = b.depth → (∃! i : Nat, a.levels[i]? ≠ b.levels[i]?) →
      ∃ handle handle', resolveLabel a = .ok handle ∧ resolveLabel b = .ok handle' ∧ handle ≠ handle') ∧
    ∀ label : PortLabel, label.Valid → label.levels ≠ [] →
      ∃ handle, resolveLabel label = .ok handle ∧ handle ≠ reservedHandleZero := by
  constructor
  · intro a b validA validB depth one
    obtain ⟨handle, found, low, -⟩ := validA.handle
    obtain ⟨handle', found', low', -⟩ := validB.handle
    refine ⟨handle, handle', found, found', ?_⟩
    rintro rfl
    exact hash_apart depth one (low.symm.trans low')
  · intro label valid filled
    obtain ⟨handle, found, -, nonzero⟩ := valid.handle
    exact ⟨handle, found, nonzero filled⟩

/-- Two labels that differ in their last level. -/
theorem handles_differ_last : ∃ handle handle', resolveLabel ⟨[1, 2, 3]⟩ = .ok handle ∧
    resolveLabel ⟨[1, 2, 4]⟩ = .ok handle' ∧ handle ≠ handle' := by
  have left : PortLabel.Valid ⟨[1, 2, 3]⟩ := ⟨by decide, forall_mem_of_all (by decide)⟩
  have right : PortLabel.Valid ⟨[1, 2, 4]⟩ := ⟨by decide, forall_mem_of_all (by decide)⟩
  refine handles_differ.1 ⟨[1, 2, 3]⟩ ⟨[1, 2, 4]⟩ left right rfl ⟨2, by decide, ?_⟩
  intro i differ
  rcases i with _ | _ | _ | i
  · exact absurd rfl differ
  · exact absurd rfl differ
  · rfl
  · exact absurd rfl differ

end Asolaria.BusFabric
