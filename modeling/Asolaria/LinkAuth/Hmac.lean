import Asolaria.Library.Copy
import Asolaria.Library.Hmac
import Asolaria.LinkAuth.Link
import Mathlib.Data.List.GetD

namespace Asolaria.LinkAuth
open Library

/-- `Sha256::finalize`: the digest of everything the object was fed. -/
def finalize (hasher : Hasher) : Sha256.Digest := Sha256.digest hasher.absorbed

/-- The key array `k0`, zero where nothing is copied into it. -/
def keyArray (key : List UInt8) : List UInt8 :=
  if key.length > hmacBlock then
    copyFromSlice (List.replicate hmacBlock 0) 0 (finalize (Hasher.new.update key)).toList
  else copyFromSlice (List.replicate hmacBlock 0) 0 key

/-- The loop that fills `ipad` and `opad` cell by cell. -/
def fillPads (k0 : List UInt8) : Nat → List UInt8 × List UInt8
  | 0 => (List.replicate hmacBlock 0, List.replicate hmacBlock 0)
  | i + 1 =>
    let (ipad, opad) := fillPads k0 i
    (ipad.set i (k0.getD i 0 ^^^ 0x36), opad.set i (k0.getD i 0 ^^^ 0x5c))

/-- `hmac_sha256_parts` as the source streams it: no piece of the message is
ever joined to another. -/
def hmacSha256PartsStreamed (key : List UInt8) (parts : List (List UInt8)) : Sha256.Digest :=
  let (ipad, opad) := fillPads (keyArray key) hmacBlock
  let inner := parts.foldl Hasher.update (Hasher.new.update ipad)
  let innerDigest := finalize inner
  finalize ((Hasher.new.update opad).update innerDigest.toList)

/-- SHA-256 as a function on byte strings. -/
def sha256Bytes (message : List UInt8) : List UInt8 := (Sha256.digest message).toList

theorem copyFromSlice_zeros (source : List UInt8) (block : Nat) :
    copyFromSlice (List.replicate block 0) 0 source = source ++ List.replicate (block - source.length) 0 := by
  rw [copyFromSlice, List.take_zero, List.nil_append, List.drop_replicate, Nat.zero_add]

/-- On both sides of the 64-byte boundary the array holds the block key. -/
theorem keyArray_eq (key : List UInt8) : keyArray key = blockKey sha256Bytes hmacBlock key := by
  unfold keyArray blockKey
  rw [copyFromSlice_zeros, copyFromSlice_zeros]
  by_cases long : key.length > hmacBlock
  · rw [if_pos long, if_pos long]
    rfl
  · rw [if_neg long, if_neg long]

theorem length_blockKey (key : List UInt8) : (blockKey sha256Bytes hmacBlock key).length = hmacBlock := by
  unfold blockKey
  by_cases long : key.length > hmacBlock
  · have width : (sha256Bytes key).length = 32 := Vector.length_toList
    rw [if_pos long, List.length_append, List.length_replicate, width, hmacBlock]
  · rw [if_neg long, List.length_append, List.length_replicate]
    omega

/-- One turn of the loop writes the next byte of both pads. -/
theorem fillPads_eq {k0 : List UInt8} {n : Nat} (bound : n ≤ k0.length) : fillPads k0 n =
    (copyPrefix (k0.map (· ^^^ 0x36)) (List.replicate hmacBlock 0) n,
      copyPrefix (k0.map (· ^^^ 0x5c)) (List.replicate hmacBlock 0) n) := by
  induction n with
  | zero => rfl
  | succ n ih =>
    have byte (pad : UInt8) : (k0.map (· ^^^ pad))[n]? = some (k0.getD n 0 ^^^ pad) := by
      rw [List.getElem?_map, List.getElem?_eq_getElem bound, List.getD_eq_getElem _ _ bound]
      rfl
    rw [fillPads, ih (by omega), copyPrefix, copyPrefix, copyCell, copyCell, byte, byte]

theorem fillPads_full {k0 : List UInt8} (length : k0.length = hmacBlock) :
    fillPads k0 hmacBlock = (k0.map (· ^^^ 0x36), k0.map (· ^^^ 0x5c)) := by
  have full (pad : UInt8) : copyPrefix (k0.map (· ^^^ pad)) (List.replicate hmacBlock 0) hmacBlock = k0.map (· ^^^ pad) := by
    have mapped : (k0.map (· ^^^ pad)).length = hmacBlock := by rw [List.length_map, length]
    rw [copyPrefix_eq (Nat.le_of_eq mapped.symm) (Nat.le_of_eq List.length_replicate.symm), List.drop_replicate,
      Nat.sub_self, List.replicate_zero, List.append_nil, ← mapped, List.take_length]
  rw [fillPads_eq (Nat.le_of_eq length.symm), full, full]

/-- The streamed MAC, in terms of the block key. -/
theorem streamed_eq (key : List UInt8) (parts : List (List UInt8)) : hmacSha256PartsStreamed key parts =
    Sha256.digest ((blockKey sha256Bytes hmacBlock key).map (· ^^^ 0x5c) ++
      sha256Bytes ((blockKey sha256Bytes hmacBlock key).map (· ^^^ 0x36) ++ parts.flatten)) := by
  unfold hmacSha256PartsStreamed
  rw [keyArray_eq, fillPads_full (length_blockKey key)]
  simp only [finalize, Hasher.absorbed_update, Hasher.absorbed_foldl, Hasher.new, List.nil_append]
  rfl

theorem streamed_toList (key : List UInt8) (parts : List (List UInt8)) :
    (hmacSha256PartsStreamed key parts).toList = hmac sha256Bytes hmacBlock key parts.flatten := by
  rw [streamed_eq, ← xorPad_eq_map, ← xorPad_eq_map]
  rfl

theorem hmacSha256Parts_eq_streamed (key : List UInt8) (parts : List (List UInt8)) :
    hmacSha256Parts key parts = hmacSha256PartsStreamed key parts := by
  rw [streamed_eq]
  rfl

/-- The MAC is that of RFC 2104 over the joined message, so it does not matter
how the message is cut into parts. -/
theorem hmacSha256Parts_is_rfc2104 (key : List UInt8) (parts : List (List UInt8)) :
    (hmacSha256PartsStreamed key parts).toList = hmac sha256Bytes 64 key parts.flatten ∧
    hmacSha256Parts key parts = hmacSha256PartsStreamed key parts ∧
    ∀ others : List (List UInt8), others.flatten = parts.flatten →
      hmacSha256PartsStreamed key others = hmacSha256PartsStreamed key parts := by
  refine ⟨streamed_toList key parts, hmacSha256Parts_eq_streamed key parts, ?_⟩
  intro others same
  rw [streamed_eq, streamed_eq, same]

end Asolaria.LinkAuth
