import Asolaria.Boot.DevicePid
import Asolaria.Library.Checked

namespace Asolaria.Boot
open Library

section Source

/-- The fixed message buffer and the length of its padded part, with every
access checked. -/
def paddedChecked (data : List UInt8) : Option (List UInt8 × Nat) := do
  let n := if data.length > tupleCap then tupleCap else data.length
  let source ← sliceChecked data 0 n
  let msg ← copyChecked (List.replicate 640 0) 0 n source
  let msg ← setChecked msg n 0x80
  let total := alignTotal 64 (n + 1)
  let msg ← copyChecked msg total (total + 8) (beBytes 8 (n * 8 % 2 ^ 64))
  return (msg, total + 8)

/-- `u32::from_be_bytes([msg[j], msg[j + 1], msg[j + 2], msg[j + 3]])`. -/
def wordChecked (msg : List UInt8) (j : Nat) : Option UInt32 := do
  let b0 ← msg[j]?
  let b1 ← msg[j + 1]?
  let b2 ← msg[j + 2]?
  let b3 ← msg[j + 3]?
  return b0.toUInt32 <<< 24 ||| b1.toUInt32 <<< 16 ||| b2.toUInt32 <<< 8 ||| b3.toUInt32

/-- The first sixteen words of the schedule array. -/
def loadChecked (msg : List UInt8) (off : Nat) (w : List UInt32) : Option (List UInt32) :=
  (List.range 16).foldlM (fun w i => do
    let word ← wordChecked msg (off + i * 4)
    setChecked w i word) w

/-- The body of the loop over `16..64`. -/
def extendStep (w : List UInt32) (i : Nat) : Option (List UInt32) := do
  let w15 ← w[i - 15]?
  let w2 ← w[i - 2]?
  let w16 ← w[i - 16]?
  let w7 ← w[i - 7]?
  setChecked w i (w16 + Sha256.smallSigma0 w15 + w7 + Sha256.smallSigma1 w2)

def extendChecked (w : List UInt32) : Option (List UInt32) := (List.range' 16 48).foldlM extendStep w

/-- The body of the loop over the rounds, with the indices into `K` and `w`. -/
def roundChecked (w : List UInt32) (t : Sha256.Words) (i : Nat) : Option Sha256.Words := do
  let k ← Sha256.roundConstants[i]?
  let word ← w[i]?
  return Sha256.round t k word

/-- One turn of the loop over the blocks. -/
def blockChecked (msg : List UInt8) (off : Nat) (h : Sha256.Words) : Option Sha256.Words := do
  let w ← loadChecked msg off (List.replicate 64 0)
  let w ← extendChecked w
  let t ← (List.range 64).foldlM (roundChecked w) h
  return ⟨h.a + t.a, h.b + t.b, h.c + t.c, h.d + t.d, h.e + t.e, h.f + t.f, h.g + t.g, h.h + t.h⟩

/-- The loop over the blocks. A turn moves `off`, so it has ended when `total`
turns are up. -/
def blocksChecked (msg : List UInt8) (total : Nat) : Nat → Nat → Sha256.Words → Option Sha256.Words
  | 0, _, h => some h
  | turns + 1, off, h =>
    if off < total then do
      let h ← blockChecked msg off h
      blocksChecked msg total turns (off + 64) h
    else some h

def digestChecked (h : Sha256.Words) : Option (List UInt8) :=
  h.toList.zipIdx.foldlM (fun out entry => copyChecked out (entry.2 * 4) (entry.2 * 4 + 4) (beBytes 4 entry.1.toNat))
    (List.replicate 32 0)

/-- `sha256` of the boot crate on its arrays. An index or a range outside of
them is a `none`. -/
def sha256Checked (data : List UInt8) : Option (List UInt8) := do
  let (msg, total) ← paddedChecked data
  let h ← blocksChecked msg total total 0 Sha256.initial
  digestChecked h

end Source

theorem alignTotal_le {n : Nat} (small : n ≤ 512) :
    alignTotal 64 (n + 1) + 8 ≤ 576 ∧ alignTotal 64 (n + 1) % 64 = 56 := by
  rw [alignTotal_eq (by omega)]
  omega

/-- Every access of the padding is inside the buffer. -/
theorem paddedChecked_eq (data : List UInt8) : paddedChecked data = some (paddedBuffer data) := by
  unfold paddedChecked paddedBuffer
  generalize count : (if data.length > tupleCap then tupleCap else data.length) = n
  have bounds : n ≤ 512 ∧ n ≤ data.length := by
    rw [← count, tupleCap]
    split <;> omega
  obtain ⟨room, -⟩ := alignTotal_le bounds.1
  have taken : (data.take n).length = n := by
    rw [List.length_take]
    omega
  have copied : (copyFromSlice (List.replicate 640 (0 : UInt8)) 0 (data.take n)).length = 640 := by
    rw [length_copyFromSlice (by rw [List.length_replicate]; omega), List.length_replicate]
  have first : copyChecked (List.replicate 640 (0 : UInt8)) 0 n (data.take n) =
      some (copyFromSlice (List.replicate 640 0) 0 (data.take n)) := by
    refine if_pos ?_
    rw [List.length_replicate]
    omega
  have marked : setChecked (copyFromSlice (List.replicate 640 (0 : UInt8)) 0 (data.take n)) n 0x80 =
      some ((copyFromSlice (List.replicate 640 0) 0 (data.take n)).set n 0x80) := by
    refine if_pos ?_
    rw [copied]
    omega
  have counted : copyChecked ((copyFromSlice (List.replicate 640 (0 : UInt8)) 0 (data.take n)).set n 0x80)
      (alignTotal 64 (n + 1)) (alignTotal 64 (n + 1) + 8) (beBytes 8 (n * 8 % 2 ^ 64)) =
      some (copyFromSlice ((copyFromSlice (List.replicate 640 0) 0 (data.take n)).set n 0x80)
        (alignTotal 64 (n + 1)) (beBytes 8 (n * 8 % 2 ^ 64))) := by
    refine if_pos ?_
    rw [List.length_set, copied, length_beBytes]
    omega
  simp only [sliceChecked_zero bounds.2, Option.bind_eq_bind, Option.bind_some, first, marked, counted]
  rfl

theorem wordChecked_eq {msg : List UInt8} {j : Nat} (inside : j + 4 ≤ msg.length) :
    wordChecked msg j = some (Sha256.wordAt msg j) := by
  have read {k : Nat} (below : k < msg.length) : msg[k]? = some (msg.getD k 0) := by
    rw [List.getElem?_eq_getElem below, List.getD_eq_getElem _ _ below]
  rw [wordChecked, Sha256.wordAt, read (show j < msg.length by omega), read (show j + 1 < msg.length by omega),
    read (show j + 2 < msg.length by omega), read (show j + 3 < msg.length by omega)]
  rfl

/-- A loop that fills the first cells of an array. -/
theorem fill_eq {f : Nat → Option UInt32} {g : Nat → UInt32} {buf : List UInt32} {n : Nat}
    (each : ∀ i < n, f i = some (g i)) (room : n ≤ buf.length) :
    (List.range n).foldlM (fun w i => do
      let word ← f i
      setChecked w i word) buf = some ((List.range n).map g ++ buf.drop n) := by
  induction n with
  | zero => rfl
  | succ n ih =>
    have front := ih (fun i below => each i (by omega)) (by omega)
    rw [List.range_succ, List.foldlM_append, front, List.map_append, List.append_assoc]
    have written : setChecked ((List.range n).map g ++ buf.drop n) n (g n) =
        some ((List.range n).map g ++ g n :: buf.drop (n + 1)) := by
      rw [List.drop_eq_getElem_cons (show n < buf.length by omega)]
      exact setChecked_append (by rw [List.length_map, List.length_range])
    simp only [Option.bind_eq_bind, Option.bind_some, List.foldlM_cons, List.foldlM_nil,
      each n (Nat.lt_succ_self n), written]
    rfl

theorem loadChecked_eq {msg : List UInt8} {k : Nat} (inside : 64 * k + 64 ≤ msg.length) :
    loadChecked msg (64 * k) (List.replicate 64 0) = some (Sha256.blockAt msg k ++ List.replicate 48 0) := by
  have each : ∀ i < 16, wordChecked msg (64 * k + i * 4) = some (Sha256.wordAt msg (64 * k + 4 * i)) := by
    intro i below
    rw [wordChecked_eq (by omega), Nat.mul_comm i 4]
  exact fill_eq each (by decide)

/-- The schedule after some turns of its loop, without the cells that are not
filled yet. -/
def extendedBy (block : List UInt32) (turns : Nat) : List UInt32 :=
  (List.range turns).foldl (fun w i =>
    w ++ [w.getD i 0 + Sha256.smallSigma0 (w.getD (i + 1) 0) + w.getD (i + 9) 0 +
      Sha256.smallSigma1 (w.getD (i + 14) 0)])
    block

theorem extendedBy_succ (block : List UInt32) (t : Nat) :
    extendedBy block (t + 1) = extendedBy block t ++ [(extendedBy block t).getD t 0 +
      Sha256.smallSigma0 ((extendedBy block t).getD (t + 1) 0) + (extendedBy block t).getD (t + 9) 0 +
      Sha256.smallSigma1 ((extendedBy block t).getD (t + 14) 0)] := by
  rw [extendedBy, List.range_succ, List.foldl_append]
  rfl

theorem length_extendedBy (block : List UInt32) (t : Nat) : (extendedBy block t).length = block.length + t := by
  induction t with
  | zero => rfl
  | succ t ih => rw [extendedBy_succ, List.length_append, ih, List.length_singleton, Nat.add_assoc]

/-- A turn reads behind the filled cells never, and fills the next one. -/
theorem extendStep_eq {block : List UInt32} {t left : Nat} (sixteen : block.length = 16) :
    extendStep (extendedBy block t ++ List.replicate (left + 1) 0) (16 + t) =
      some (extendedBy block (t + 1) ++ List.replicate left 0) := by
  have length := length_extendedBy block t
  have read {k j : Nat} (same : k = j) (below : j < 16 + t) :
      (extendedBy block t ++ List.replicate (left + 1) 0)[k]? = some ((extendedBy block t).getD j 0) := by
    rw [same, List.getElem?_append_left (by omega), List.getElem?_eq_getElem (by omega),
      List.getD_eq_getElem _ _ (by omega)]
  rw [extendStep, read (show 16 + t - 15 = t + 1 by omega) (by omega),
    read (show 16 + t - 2 = t + 14 by omega) (by omega),
    read (show 16 + t - 16 = t by omega) (by omega), read (show 16 + t - 7 = t + 9 by omega) (by omega),
    extendedBy_succ,
    List.append_assoc]
  exact setChecked_append (by omega)

theorem extendChecked_eq {block : List UInt32} (sixteen : block.length = 16) :
    extendChecked (block ++ List.replicate 48 0) = some (extendWords block) := by
  have turns (t left : Nat) : (List.range' 16 t).foldlM extendStep (block ++ List.replicate (t + left) 0) =
      some (extendedBy block t ++ List.replicate left 0) := by
    induction t generalizing left with
    | zero =>
      rw [Nat.zero_add]
      rfl
    | succ t ih =>
      rw [List.range'_concat, List.foldlM_append, Nat.one_mul, show t + 1 + left = t + (left + 1) by omega, ih]
      simp only [Option.bind_eq_bind, Option.bind_some, List.foldlM_cons, List.foldlM_nil, extendStep_eq sixteen]
      rfl
  have all := turns 48 0
  rw [List.replicate_zero, List.append_nil] at all
  exact all

theorem rounds_eq {w : List UInt32} {n : Nat} (length : w.length = 64) (h : Sha256.Words) (turns : n ≤ 64) :
    (List.range n).foldlM (roundChecked w) h =
      some (((Sha256.roundConstants.zip w).take n).foldl (fun t kw => Sha256.round t kw.1 kw.2) h) := by
  have constants : Sha256.roundConstants.length = 64 := rfl
  induction n with
  | zero => rfl
  | succ n ih =>
    have inside : n < (Sha256.roundConstants.zip w).length := by
      rw [List.length_zip]
      omega
    rw [List.range_succ, List.foldlM_append, ih (by omega), List.take_succ_eq_append_getElem inside, List.foldl_append,
      List.getElem_zip]
    simp only [Option.bind_eq_bind, Option.bind_some, List.foldlM_cons, List.foldlM_nil, roundChecked,
      List.getElem?_eq_getElem (show n < Sha256.roundConstants.length by omega),
      List.getElem?_eq_getElem (show n < w.length by omega)]
    rfl

theorem length_blockAt (msg : List UInt8) (k : Nat) : (Sha256.blockAt msg k).length = 16 := by
  rw [Sha256.blockAt, List.length_map, List.length_range]

/-- A whole block of the message is read and compressed. -/
theorem blockChecked_eq {msg : List UInt8} {k : Nat} (inside : 64 * k + 64 ≤ msg.length) (h : Sha256.Words) :
    blockChecked msg (64 * k) h = some (compressWords h (Sha256.blockAt msg k)) := by
  have sixteen := length_blockAt msg k
  have length : (extendWords (Sha256.blockAt msg k)).length = 64 := by
    rw [show extendWords (Sha256.blockAt msg k) = extendedBy (Sha256.blockAt msg k) 48 from rfl,
      length_extendedBy, sixteen]
  have rounds := rounds_eq length h (Nat.le_refl 64)
  rw [List.take_of_length_le (by rw [List.length_zip, length]; omega)] at rounds
  rw [blockChecked, loadChecked_eq inside]
  simp only [Option.bind_eq_bind, Option.bind_some, extendChecked_eq sixteen, rounds]
  rfl

/-- The loop compresses the blocks from its offset on. -/
theorem blocksChecked_eq {msg : List UInt8} {blocks turns k : Nat} (inside : 64 * blocks ≤ msg.length)
    (begun : k ≤ blocks)
    (enough : blocks ≤ k + turns) (h : Sha256.Words) :
    blocksChecked msg (64 * blocks) turns (64 * k) h =
      some ((List.range' k (blocks - k)).foldl (fun h k => compressWords h (Sha256.blockAt msg k)) h) := by
  induction turns generalizing k h with
  | zero =>
    rw [show blocks - k = 0 by omega]
    rfl
  | succ turns ih =>
    rw [blocksChecked]
    split
    · have next := ih (k := k + 1) (by omega) (by omega) (compressWords h (Sha256.blockAt msg k))
      rw [blockChecked_eq (by omega)]
      simp only [Option.bind_eq_bind, Option.bind_some]
      rw [show 64 * k + 64 = 64 * (k + 1) by omega, next, show blocks - k = (blocks - (k + 1)) + 1 by omega,
        List.range'_succ, List.foldl_cons]
    · rw [show blocks - k = 0 by omega]
      rfl

theorem beBytes_word (w : UInt32) : beBytes 4 w.toNat =
    [(w >>> 24).toUInt8, (w >>> 16).toUInt8, (w >>> 8).toUInt8, (w >>> 0).toUInt8] := by
  have byte (shift : UInt32) (small : shift.toNat < 32) :
      (w >>> shift).toUInt8 = UInt8.ofNat (w.toNat / 2 ^ shift.toNat) := by
    apply UInt8.toNat_inj.mp
    rw [UInt32.toNat_toUInt8, UInt32.toNat_shiftRight, Nat.mod_eq_of_lt small, Nat.shiftRight_eq_div_pow,
      UInt8.toNat_ofNat']
  rw [byte 24 (by decide), byte 16 (by decide), byte 8 (by decide), byte 0 (by decide)]
  rfl

/-- The loop over the words writes them side by side. -/
theorem writeWords_eq {words : List UInt32} {k : Nat} {front : List UInt8} (place : front.length = k * 4) :
    (words.zipIdx k).foldlM (fun out entry => copyChecked out (entry.2 * 4) (entry.2 * 4 + 4) (beBytes 4 entry.1.toNat))
      (front ++ List.replicate (4 * words.length) 0) =
      some (front ++ words.flatMap fun word => beBytes 4 word.toNat) := by
  induction words generalizing k front with
  | nil => rfl
  | cons word words ih =>
    have room : List.replicate (4 * (word :: words).length) (0 : UInt8) =
        List.replicate 4 0 ++ List.replicate (4 * words.length) 0 := by
      rw [List.replicate_append_replicate, List.length_cons, Nat.mul_succ, Nat.add_comm]
    have written : copyChecked (front ++ (List.replicate 4 0 ++ List.replicate (4 * words.length) 0))
        (k * 4) (k * 4 + 4)
        (beBytes 4 word.toNat) = some (front ++ (beBytes 4 word.toNat ++ List.replicate (4 * words.length) 0)) :=
      copyChecked_append place.symm (by rw [List.length_replicate, length_beBytes]) (by rw [length_beBytes])
    have moved : (front ++ beBytes 4 word.toNat).length = (k + 1) * 4 := by
      rw [List.length_append, length_beBytes]
      omega
    rw [List.zipIdx_cons, List.foldlM_cons, room, written, List.flatMap_cons, ← List.append_assoc, ← List.append_assoc]
    exact ih moved

/-- A byte for each of four places of eight words. -/
theorem ofFn_bytes (byte : Nat → Nat → UInt8) : (Vector.ofFn fun i : Fin 32 => byte (i.val / 4) (i.val % 4)).toList =
    (List.range 8).flatMap fun k => [byte k 0, byte k 1, byte k 2, byte k 3] := by
  rw [Vector.toList_ofFn]
  rfl

theorem digestChecked_eq (h : Sha256.Words) : digestChecked h =
    some (Vector.ofFn fun i : Fin 32 =>
      (h.toList.getD (i.val / 4) 0 >>> (24 - 8 * (i.val % 4).toUInt32)).toUInt8).toList := by
  have written := @writeWords_eq h.toList 0 [] rfl
  rw [show 4 * h.toList.length = 32 from rfl, List.nil_append, List.nil_append] at written
  have bytes := ofFn_bytes fun k place => (h.toList.getD k 0 >>> (24 - 8 * place.toUInt32)).toUInt8
  rw [bytes, digestChecked, written]
  have word (w : UInt32) : [(w >>> (24 - 8 * Nat.toUInt32 0)).toUInt8, (w >>> (24 - 8 * Nat.toUInt32 1)).toUInt8,
      (w >>> (24 - 8 * Nat.toUInt32 2)).toUInt8, (w >>> (24 - 8 * Nat.toUInt32 3)).toUInt8] = beBytes 4 w.toNat := by
    rw [beBytes_word]
    rfl
  simp only [word]
  rfl

/-- The padded part is a number of whole blocks inside the buffer. -/
theorem paddedBuffer_blocks (data : List UInt8) :
    ∃ blocks, (paddedBuffer data).2 = 64 * blocks ∧ 64 * blocks ≤ (paddedBuffer data).1.length := by
  unfold paddedBuffer
  generalize count : (if data.length > tupleCap then tupleCap else data.length) = n
  have small : n ≤ 512 := by
    rw [← count, tupleCap]
    split <;> omega
  have taken : (data.take n).length ≤ 512 := by
    rw [List.length_take]
    omega
  obtain ⟨room, aligned⟩ := alignTotal_le small
  refine ⟨(alignTotal 64 (n + 1) + 8) / 64, by dsimp only; omega, ?_⟩
  dsimp only
  have first : (copyFromSlice (List.replicate 640 (0 : UInt8)) 0 (data.take n)).length = 640 := by
    rw [length_copyFromSlice (by rw [List.length_replicate]; omega), List.length_replicate]
  rw [length_copyFromSlice (by rw [List.length_set, first, length_beBytes]; omega), List.length_set, first]
  omega

/-- No access of the boot crate's `sha256` is out of range, whatever it hashes. -/
theorem sha256Checked_eq_some (data : List UInt8) : sha256Checked data = some (sha256 data).toList := by
  obtain ⟨blocks, count, inside⟩ := paddedBuffer_blocks data
  have loop := blocksChecked_eq inside (Nat.zero_le blocks) (by omega : blocks ≤ 0 + 64 * blocks) Sha256.initial
  rw [Nat.sub_zero, ← List.range_eq_range', Nat.mul_zero] at loop
  rw [sha256Checked, paddedChecked_eq, sha256]
  generalize paddedBuffer data = padded at count inside loop
  obtain ⟨msg, total⟩ := padded
  dsimp only at count loop
  subst count
  simp only [Option.bind_eq_bind, Option.bind_some, loop, digestChecked_eq]
  rw [Nat.mul_div_cancel_left blocks (by decide)]

/-- On every text of at most `TUPLE_CAP` bytes the fixed-buffer hash runs
inside its arrays and is SHA-256. -/
theorem fixed_buffer_sha256 {data : List UInt8} (fits : data.length ≤ tupleCap) :
    sha256Checked data = some (Sha256.digest data).toList := by
  rw [sha256Checked_eq_some, sha256_eq_digest fits]

theorem fixed_buffer_sha256_abc :
    (utf8 "abc").length ≤ tupleCap ∧ sha256Checked (utf8 "abc") = some [
      0xba, 0x78, 0x16, 0xbf, 0x8f, 0x01, 0xcf, 0xea, 0x41, 0x41, 0x40, 0xde, 0x5d, 0xae, 0x22, 0x23,
      0xb0, 0x03, 0x61, 0xa3, 0x96, 0x17, 0x7a, 0x9c, 0xb4, 0x10, 0xff, 0x61, 0xf2, 0x00, 0x15, 0xad] := by
  have short : (utf8 "abc").length ≤ tupleCap := by decide
  refine ⟨short, (fixed_buffer_sha256 short).trans (congrArg some ?_)⟩
  decide +kernel

end Asolaria.Boot
