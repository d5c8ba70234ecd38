import Mathlib.Data.List.Basic

namespace Library

/-- The key of RFC 2104 as one block: a key longer than the block is hashed
first, and zeros are appended. -/
def blockKey (hash : List UInt8 → List UInt8) (block : Nat) (key : List UInt8) : List UInt8 :=
  let short := if key.length > block then hash key else key
  short ++ List.replicate (block - short.length) 0

/-- A block combined with a pad that repeats one byte. -/
def xorPad (block : List UInt8) (pad : UInt8) : List UInt8 :=
  List.zipWith (· ^^^ ·) block (List.replicate block.length pad)

/-- HMAC of RFC 2104: `H(K ^ opad, H(K ^ ipad, text))`. -/
def hmac (hash : List UInt8 → List UInt8) (block : Nat) (key message : List UInt8) : List UInt8 :=
  let k := blockKey hash block key
  hash (xorPad k 0x5c ++ hash (xorPad k 0x36 ++ message))

theorem xorPad_eq_map (block : List UInt8) (pad : UInt8) : xorPad block pad = block.map (· ^^^ pad) := by
  induction block with
  | nil => rfl
  | cons byte rest ih => rw [xorPad, List.length_cons, List.replicate_succ, List.zipWith_cons_cons, ← xorPad, ih, List.map_cons]

/-- A hash object that is fed piece by piece. What it has absorbed is the
concatenation of its updates. -/
structure Hasher where
  absorbed : List UInt8

namespace Hasher

def new : Hasher := ⟨[]⟩

def update (hasher : Hasher) (piece : List UInt8) : Hasher := ⟨hasher.absorbed ++ piece⟩

@[simp] theorem absorbed_update (hasher : Hasher) (piece : List UInt8) :
    (hasher.update piece).absorbed = hasher.absorbed ++ piece := rfl

/-- A loop of updates absorbs the concatenation of the pieces. -/
theorem absorbed_foldl (hasher : Hasher) (pieces : List (List UInt8)) :
    (pieces.foldl update hasher).absorbed = hasher.absorbed ++ pieces.flatten := by
  induction pieces generalizing hasher with
  | nil => simp
  | cons piece rest ih => rw [List.foldl_cons, ih, absorbed_update, List.flatten_cons, List.append_assoc]

end Hasher

end Library
