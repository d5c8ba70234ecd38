import Asolaria.Library.MachineInt

namespace Library.Sha256

/-- A SHA-256 digest or any other 32-byte field. -/
abbrev Digest := Vector UInt8 32

/-- The eight working words of FIPS 180-4, section 6.2. -/
structure Words where
  a : UInt32
  b : UInt32
  c : UInt32
  d : UInt32
  e : UInt32
  f : UInt32
  g : UInt32
  h : UInt32
deriving DecidableEq, Repr

def initial : Words :=
  ⟨0x6a09e667, 0xbb67ae85, 0x3c6ef372, 0xa54ff53a, 0x510e527f, 0x9b05688c, 0x1f83d9ab, 0x5be0cd19⟩

def roundConstants : List UInt32 :=
  [0x428a2f98, 0x71374491, 0xb5c0fbcf, 0xe9b5dba5, 0x3956c25b, 0x59f111f1, 0x923f82a4, 0xab1c5ed5,
   0xd807aa98, 0x12835b01, 0x243185be, 0x550c7dc3, 0x72be5d74, 0x80deb1fe, 0x9bdc06a7, 0xc19bf174,
   0xe49b69c1, 0xefbe4786, 0x0fc19dc6, 0x240ca1cc, 0x2de92c6f, 0x4a7484aa, 0x5cb0a9dc, 0x76f988da,
   0x983e5152, 0xa831c66d, 0xb00327c8, 0xbf597fc7, 0xc6e00bf3, 0xd5a79147, 0x06ca6351, 0x14292967,
   0x27b70a85, 0x2e1b2138, 0x4d2c6dfc, 0x53380d13, 0x650a7354, 0x766a0abb, 0x81c2c92e, 0x92722c85,
   0xa2bfe8a1, 0xa81a664b, 0xc24b8b70, 0xc76c51a3, 0xd192e819, 0xd6990624, 0xf40e3585, 0x106aa070,
   0x19a4c116, 0x1e376c08, 0x2748774c, 0x34b0bcb5, 0x391c0cb3, 0x4ed8aa4a, 0x5b9cca4f, 0x682e6ff3,
   0x748f82ee, 0x78a5636f, 0x84c87814, 0x8cc70208, 0x90befffa, 0xa4506ceb, 0xbef9a3f7, 0xc67178f2]

def rotateRight (x : UInt32) (n : UInt32) : UInt32 := (x >>> n) ||| (x <<< (32 - n))

def smallSigma0 (x : UInt32) : UInt32 := rotateRight x 7 ^^^ rotateRight x 18 ^^^ (x >>> 3)

def smallSigma1 (x : UInt32) : UInt32 := rotateRight x 17 ^^^ rotateRight x 19 ^^^ (x >>> 10)

def bigSigma0 (x : UInt32) : UInt32 := rotateRight x 2 ^^^ rotateRight x 13 ^^^ rotateRight x 22

def bigSigma1 (x : UInt32) : UInt32 := rotateRight x 6 ^^^ rotateRight x 11 ^^^ rotateRight x 25

def choose (x y z : UInt32) : UInt32 := (x &&& y) ^^^ (~~~x &&& z)

def majority (x y z : UInt32) : UInt32 := (x &&& y) ^^^ (x &&& z) ^^^ (y &&& z)

/-- One round, consuming a round constant and a schedule word. -/
def round (s : Words) (constant word : UInt32) : Words :=
  let t1 := s.h + bigSigma1 s.e + choose s.e s.f s.g + constant + word
  let t2 := bigSigma0 s.a + majority s.a s.b s.c
  ⟨t1 + t2, s.a, s.b, s.c, s.d + t1, s.e, s.f, s.g⟩

/-- The message schedule: 16 block words extended to 64. -/
def schedule (block : List UInt32) : List UInt32 :=
  (List.range 48).foldl (fun w i =>
    w ++ [smallSigma1 (w.getD (i + 14) 0) + w.getD (i + 9) 0 + smallSigma0 (w.getD (i + 1) 0) + w.getD i 0]) block

def compress (s : Words) (block : List UInt32) : Words :=
  let t := (roundConstants.zip (schedule block)).foldl (fun t kw => round t kw.1 kw.2) s
  ⟨s.a + t.a, s.b + t.b, s.c + t.c, s.d + t.d, s.e + t.e, s.f + t.f, s.g + t.g, s.h + t.h⟩

/-- Padding to a whole number of 64-byte blocks, ending in the bit length. -/
def pad (message : List UInt8) : List UInt8 :=
  message ++ 0x80 :: (List.replicate ((119 - message.length % 64) % 64) 0 ++ beBytes 8 (8 * message.length))

def wordAt (bytes : List UInt8) (i : Nat) : UInt32 :=
  (bytes.getD i 0).toUInt32 <<< 24 ||| (bytes.getD (i + 1) 0).toUInt32 <<< 16 |||
    (bytes.getD (i + 2) 0).toUInt32 <<< 8 ||| (bytes.getD (i + 3) 0).toUInt32

def blockAt (bytes : List UInt8) (k : Nat) : List UInt32 :=
  (List.range 16).map fun i => wordAt bytes (64 * k + 4 * i)

def Words.toList (s : Words) : List UInt32 := [s.a, s.b, s.c, s.d, s.e, s.f, s.g, s.h]

/-- FIPS 180-4 SHA-256. -/
def digest (message : List UInt8) : Digest :=
  let padded := pad message
  let final := (List.range (padded.length / 64)).foldl (fun s k => compress s (blockAt padded k)) initial
  Vector.ofFn fun i => (final.toList.getD (i.val / 4) 0 >>> (24 - 8 * (i.val % 4).toUInt32)).toUInt8

end Library.Sha256
