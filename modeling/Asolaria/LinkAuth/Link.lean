import Asolaria.Library.Sha256
import Asolaria.Library.Text

namespace Asolaria.LinkAuth
open Library

/-- The block of SHA-256 to which a key is padded. -/
def hmacBlock : Nat := 64

/-- The key as one block: a longer key is replaced by its digest. -/
def normalizedKey (key : List UInt8) : List UInt8 :=
  let short := if key.length > hmacBlock then (Sha256.digest key).toList else key
  short ++ List.replicate (hmacBlock - short.length) 0

/-- HMAC-SHA256 of the parts in their order. -/
def hmacSha256Parts (key : List UInt8) (parts : List (List UInt8)) : Sha256.Digest :=
  let ipad := (normalizedKey key).map (· ^^^ 0x36)
  let opad := (normalizedKey key).map (· ^^^ 0x5c)
  let inner := Sha256.digest (ipad ++ parts.flatten)
  Sha256.digest (opad ++ inner.toList)

structure LinkRequest where
  ownerPid : String
  host : String
  verb : String
  nonce : String
  tsUnixS : UInt64
  hmacHex : String
  deriving DecidableEq, Repr

inductive LinkVerdict
  | allow
  | denyBadHmac
  | denyOwnerNotGranted
  | denyStale
  | denyMalformed
  deriving DecidableEq, Repr

/-- The table `HEX`. -/
def hex : List UInt8 := "0123456789abcdef".toUTF8.data.toList

/-- `hmac_hex_matches`: two characters per byte, without an early exit. -/
def hmacHexMatches (mac : Sha256.Digest) (expectedHex : String) : Bool :=
  let eb := utf8 expectedHex
  if eb.length ≠ 64 then false
  else
    (List.range 32).foldl (fun equal i =>
      let hi := hex.getD (mac.toList.getD i 0 >>> 4).toNat 0
      let lo := hex.getD (mac.toList.getD i 0 &&& 0x0f).toNat 0
      if eb.getD (2 * i) 0 ≠ hi ∨ eb.getD (2 * i + 1) 0 ≠ lo then false else equal) true

/-- The canonical parts that both sides of a link feed to the HMAC. -/
def LinkRequest.parts (req : LinkRequest) : List (List UInt8) :=
  [utf8 "LINK|", utf8 req.ownerPid, utf8 "|", utf8 req.host, utf8 "|", utf8 req.verb, utf8 "|", utf8 req.nonce,
    utf8 "|", beBytes 8 req.tsUnixS.toNat]

/-- `verify_link`, with its checks in the order of the source. -/
def verifyLink (req : LinkRequest) (sharedKey : List UInt8) (grantedOwnerPids : List String) (nowUnixS maxSkewS : UInt64) :
    LinkVerdict :=
  if req.ownerPid.isEmpty || req.host.isEmpty || req.verb.isEmpty || req.nonce.isEmpty ||
      (utf8 req.hmacHex).length != 64 then .denyMalformed
  else
    let diff := if nowUnixS ≥ req.tsUnixS then nowUnixS - req.tsUnixS else req.tsUnixS - nowUnixS
    if diff > maxSkewS then .denyStale
    else if !grantedOwnerPids.any (· == req.ownerPid) then .denyOwnerNotGranted
    else if hmacHexMatches (hmacSha256Parts sharedKey req.parts) req.hmacHex then .allow
    else .denyBadHmac

end Asolaria.LinkAuth
