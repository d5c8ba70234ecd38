import Asolaria.Boot.HwInventory
import Asolaria.Library.Decimal
import Mathlib.Data.List.Basic

namespace Asolaria.Boot
open Library

/-- The loop stops at the next length that leaves room for the bit count. -/
theorem alignTotal_eq {turns total : Nat} (enough : (120 - total % 64) % 64 ≤ turns) :
    alignTotal turns total = total + (120 - total % 64) % 64 := by
  induction turns generalizing total with
  | zero =>
    rw [alignTotal]
    omega
  | succ turns ih =>
    rw [alignTotal]
    split
    · rw [ih (by omega)]
      omega
    · omega

theorem length_pad (data : List UInt8) :
    (Sha256.pad data).length = data.length + 1 + (119 - data.length % 64) % 64 + 8 := by
  rw [Sha256.pad, List.length_append, List.length_cons, List.length_append, List.length_replicate, length_beBytes]
  omega

/-- The buffer holds the padded message and zeros behind it. -/
theorem paddedBuffer_eq {data : List UInt8} (fits : data.length ≤ tupleCap) :
    paddedBuffer data = (Sha256.pad data ++ List.replicate (640 - (Sha256.pad data).length) 0, (Sha256.pad data).length) := by
  have short : ¬ data.length > tupleCap := Nat.not_lt.mpr fits
  rw [tupleCap] at fits
  have total : alignTotal 64 (data.length + 1) = data.length + 1 + (119 - data.length % 64) % 64 := by
    rw [alignTotal_eq (by omega)]
    omega
  have bits : data.length * 8 % 2 ^ 64 = 8 * data.length := by omega
  unfold paddedBuffer
  simp only [if_neg short, List.take_length, total, bits, length_pad]
  generalize padding : (119 - data.length % 64) % 64 = zeros
  generalize rest : 640 - (data.length + 1 + zeros + 8) = tail
  have blank : List.replicate 640 (0 : UInt8) =
      List.replicate data.length 0 ++ 0 :: (List.replicate zeros 0 ++ (List.replicate 8 0 ++ List.replicate tail 0)) := by
    rw [List.replicate_append_replicate, List.replicate_append_replicate, ← List.replicate_succ,
      List.replicate_append_replicate]
    congr 1
    omega
  have front : data.length + 1 + zeros = (data ++ 0x80 :: List.replicate zeros 0).length := by
    rw [List.length_append, List.length_cons, List.length_replicate]
    omega
  have copied : copyFromSlice (List.replicate 640 0) 0 data =
      data ++ 0 :: (List.replicate zeros 0 ++ (List.replicate 8 0 ++ List.replicate tail 0)) := by
    rw [blank]
    exact @copyFromSlice_append _ [] _ data _ List.length_replicate
  rw [copied, List.set_append_right _ _ (Nat.le_refl _), Nat.sub_self, List.set_cons_zero, ← List.cons_append,
    ← List.append_assoc, front, copyFromSlice_append (by rw [List.length_replicate, length_beBytes]), Sha256.pad, padding]
  simp

theorem extendWords_eq (block : List UInt32) : extendWords block = Sha256.schedule block := by
  refine List.foldl_ext _ _ _ fun w i _ => ?_
  rw [UInt32.add_comm _ (Sha256.smallSigma1 _), UInt32.add_comm (w.getD i 0), UInt32.add_comm (_ + w.getD i 0),
    ← UInt32.add_assoc, ← UInt32.add_assoc]

theorem compressWords_eq (h : Sha256.Words) (block : List UInt32) : compressWords h block = Sha256.compress h block := by
  rw [compressWords, extendWords_eq, Sha256.compress]

theorem wordAt_append {bytes rest : List UInt8} {i : Nat} (inside : i + 4 ≤ bytes.length) :
    Sha256.wordAt (bytes ++ rest) i = Sha256.wordAt bytes i := by
  rw [Sha256.wordAt, Sha256.wordAt, List.getD_append _ _ _ _ (by omega), List.getD_append _ _ _ _ (by omega),
    List.getD_append _ _ _ _ (by omega), List.getD_append _ _ _ _ (by omega)]

theorem blockAt_append {bytes rest : List UInt8} {k : Nat} (inside : k < bytes.length / 64) :
    Sha256.blockAt (bytes ++ rest) k = Sha256.blockAt bytes k := by
  refine List.map_congr_left fun i member => wordAt_append ?_
  have := List.mem_range.mp member
  omega

/-- On data that fits its buffer the boot crate computes SHA-256. -/
theorem sha256_eq_digest {data : List UInt8} (fits : data.length ≤ tupleCap) : sha256 data = Sha256.digest data := by
  unfold sha256 Sha256.digest
  rw [paddedBuffer_eq fits]
  have folded : (List.range ((Sha256.pad data).length / 64)).foldl (fun h k => compressWords h (Sha256.blockAt
      (Sha256.pad data ++ List.replicate (640 - (Sha256.pad data).length) 0) k)) Sha256.initial =
      (List.range ((Sha256.pad data).length / 64)).foldl (fun s k => Sha256.compress s (Sha256.blockAt
        (Sha256.pad data) k)) Sha256.initial := by
    refine List.foldl_ext _ _ _ fun h k member => ?_
    rw [compressWords_eq, blockAt_append (List.mem_range.mp member)]
  simp only [folded]

/-- The loop ends where no pair of bytes is left. -/
theorem length_lt_two {bytes : List UInt8} (unpaired : ∀ hi lo rest, bytes = hi :: lo :: rest → False) :
    bytes.length < 2 := by
  rcases bytes with _ | ⟨hi, _ | ⟨lo, rest⟩⟩
  · exact Nat.zero_lt_two
  · exact Nat.one_lt_two
  · exact absurd rfl (unpaired hi lo rest)

theorem length_takeGlyphs {bytes : List UInt8} {sel : List UInt16} (room : sel.length ≤ 60) :
    (takeGlyphs bytes sel).length = min 60 (sel.length + bytes.length / 2) := by
  fun_induction takeGlyphs bytes sel with
  | case1 sel hi lo rest below ih =>
    rw [ih (by rw [List.length_append, List.length_singleton]; omega), List.length_append, List.length_singleton,
      List.length_cons, List.length_cons]
    omega
  | case2 sel hi lo rest full => omega
  | case3 bytes sel short =>
    have := length_lt_two short
    omega

theorem length_projectLoop {tuple : List UInt8} {turns : Nat} {counter : UInt32} {sel : List UInt16}
    (room : sel.length ≤ 60) (enough : 60 ≤ sel.length + turns) : (projectLoop tuple turns counter sel).length = 60 := by
  induction turns generalizing counter sel with
  | zero =>
    rw [projectLoop]
    omega
  | succ turns ih =>
    rw [projectLoop]
    split
    · have grown : (takeGlyphs (sha256 (tuple ++ beBytes 4 counter.toNat)).toList sel).length = min 60 (sel.length + 16) := by
        rw [length_takeGlyphs room, Vector.length_toList]
      exact ih (by omega) (by omega)
    · omega

/-- The loops of `project_60d` end with all sixty glyphs. -/
theorem length_project60d (tuple : List UInt8) : (project60d tuple).length = 60 :=
  length_projectLoop (Nat.zero_le 60) (Nat.le_refl 60)

theorem length_coordBytes (coord : List UInt16) : (coordBytes coord).length = 2 * coord.length := by
  rw [coordBytes, List.length_flatMap]
  simp [Nat.mul_comm]

theorem takeGlyphs_small {bytes : List UInt8} {sel : List UInt16} (small : ∀ g ∈ sel, g.toNat < 1024) :
    ∀ g ∈ takeGlyphs bytes sel, g.toNat < 1024 := by
  fun_induction takeGlyphs bytes sel with
  | case1 sel hi lo rest below ih =>
    refine ih fun g member => ?_
    rcases List.mem_append.mp member with old | new
    · exact small g old
    · rw [List.mem_singleton.mp new, UInt16.toNat_and]
      exact Nat.lt_of_le_of_lt Nat.and_le_right (by decide)
  | case2 sel hi lo rest full => exact small
  | case3 bytes sel short => exact small

theorem projectLoop_small {tuple : List UInt8} {turns : Nat} {counter : UInt32} {sel : List UInt16}
    (small : ∀ g ∈ sel, g.toNat < 1024) : ∀ g ∈ projectLoop tuple turns counter sel, g.toNat < 1024 := by
  induction turns generalizing counter sel with
  | zero => exact small
  | succ turns ih =>
    rw [projectLoop]
    split
    · exact ih (takeGlyphs_small small)
    · exact small

/-- Every glyph has ten bits. -/
theorem project60d_small (tuple : List UInt8) : ∀ g ∈ project60d tuple, g.toNat < 1024 :=
  projectLoop_small fun g member => by cases member

theorem length_putU32_le {v : UInt32} {digits : Nat} (some : 0 < digits) (small : v.toNat < 10 ^ digits) :
    (putU32 v).length ≤ digits :=
  length_decimalBytes_le some small

theorem length_flag (b : Bool) : (flag b).length = 1 := by
  cases b with
  | false => decide
  | true => decide

/-- A line of the enumeration fits its 48-byte buffer. -/
theorem length_pciLine (bus dev func : UInt8) (vendor device : UInt16) (classCode subclass progIf : UInt8) :
    (pciLine bus dev func vendor device classCode subclass progIf).length = 41 := by
  have texts : (utf8 "  PCI ").length = 6 ∧ (utf8 ":").length = 1 ∧ (utf8 ".").length = 1 ∧ (utf8 "  ").length = 2 ∧
    (utf8 " class=").length = 7 ∧ (utf8 "\r\n").length = 2 := by decide
  unfold pciLine
  simp only [List.length_append, texts, length_toHex, List.length_cons, List.length_nil]

theorem length_intercalate_le {texts : List (List UInt8)} {width : Nat} (bounded : ∀ text ∈ texts, text.length ≤ width) :
    ((utf8 ".").intercalate texts).length ≤ (width + 1) * texts.length := by
  have dot : (utf8 ".").length = 1 := by decide
  induction texts with
  | nil => exact Nat.zero_le _
  | cons text rest ih =>
    have here := bounded text List.mem_cons_self
    have behind := ih fun text member => bounded text (List.mem_cons_of_mem _ member)
    cases rest with
    | nil =>
      rw [List.intercalate_singleton, List.length_singleton]
      omega
    | cons next rest =>
      rw [List.intercalate_cons_cons, List.length_append, List.length_append, dot, List.length_cons, Nat.mul_succ]
      omega

/-- With the cap of 64 functions and the seats of `build.rs` the row fits its
448-byte buffer. -/
theorem length_bootPidRow_le {t : HwTuple} {coord : List UInt16} (capped : t.count.toNat ≤ 64)
    (small : ∀ g ∈ coord, g.toNat < 1024) (seat : Seat) (deviceDigest hwDigest : Sha256.Digest) :
    (bootPidRow t seat deviceDigest hwDigest coord).length ≤ 448 := by
  have texts : (utf8 "  BOOTPID|device_pid=").length = 21 ∧ (utf8 "|device_pid_full=").length = 17 ∧
      (utf8 "|hw_tuple_pid_full=").length = 19 ∧ (utf8 "|hw_devices=").length = 12 ∧ (utf8 "|rst_vmd=").length = 9 ∧
      (utf8 "|ahci=").length = 6 ∧ (utf8 "|storage=").length = 9 ∧ (utf8 "|seat=").length = 6 ∧
      (utf8 "|colony=").length = 8 ∧
      (utf8 "|behcs=1024|dims=60|derived_from=60d_coordinate|coord_prefix=").length = 61 ∧
      (utf8 "|e=0|fire=0|json=0\r\n").length = 20 := by decide +kernel
  have counted : (putU32 t.count).length ≤ 2 := length_putU32_le (by decide) (by omega)
  have glyphs : ((utf8 ".").intercalate ((coord.take 6).map fun g => putU32 g.toUInt32)).length ≤ 30 := by
    have four : ∀ text ∈ (coord.take 6).map fun g => putU32 g.toUInt32, text.length ≤ 4 := by
      intro text member
      obtain ⟨g, taken, rfl⟩ := List.mem_map.mp member
      have bound := small g (List.mem_of_mem_take taken)
      refine length_putU32_le (by decide) ?_
      rw [UInt16.toNat_toUInt32]
      omega
    have joined := length_intercalate_le four
    rw [List.length_map, List.length_take] at joined
    omega
  have label := seat.short
  unfold bootPidRow
  simp only [List.length_append, texts, length_toHex, List.length_take, Vector.length_toList, length_flag]
  clear texts
  omega

/-- The digest is that of the coordinate in big-endian bytes. -/
theorem emitDevicePid_eq (t : HwTuple) (seat : Seat) :
    (emitDevicePid t seat).1 = Sha256.digest (coordBytes (project60d t.buf)) := by
  refine sha256_eq_digest ?_
  rw [length_coordBytes, length_project60d, tupleCap]
  omega

end Asolaria.Boot
