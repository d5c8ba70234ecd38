import Asolaria.Library.Search
import Asolaria.Library.Sha256
import Asolaria.Library.Text

namespace Asolaria.Envelope.Fedenv
open Library

def cosignWindow : String := "QUINTUPLE-DELEGATED-2WEEK-2026-05-22-to-2026-06-05"

def cosignWindowV3 : String := "FOUNDATION-V3-LAW-EXTENDED-4MO"

def adminOverride : String := "ADMIN-OVERRIDE-OP-JESSE"

def maxPayloadBytes : Nat := 64 * 1024

def targetPrefixes : List String := ["pid:H", "cli:", "citizen:", "antigravity:", "daemon:", "google:", "meta:"]

inductive RejectReason
  | malformed
  | unresolvableTarget
  | payloadTooLarge
  | expiredCosign
  | rowHashMismatch
  | reservedSlot
  deriving DecidableEq, Repr

inductive RouteKind
  | pidRouted
  | cli
  | citizen
  | antigravity
  | daemon
  | google
  | metaSlot
  deriving DecidableEq, Repr

structure FedenvView where
  callerPid : String
  target : String
  verb : String
  payload : String
  backAddress : String
  cube47d : String
  glyph5 : String
  cosignToken : String
  ttlSeconds : String
  antecedents : String
  rowHash : String
  ts : Option String
  deriving DecidableEq, Repr

def startsWith (s start : String) : Bool := (utf8 start).isPrefixOf (utf8 s)

def isHex16 (s : String) : Bool :=
  (utf8 s).length == 16 && (utf8 s).all fun b => (48 ≤ b && b ≤ 57) || (97 ≤ b && b ≤ 102)

def isOctalDigit (b : UInt8) : Bool := 48 ≤ b && b ≤ 55

/-- The loop of `cube_47d_ok` over the pieces between the hyphens. The counter
is a `u32` and wraps around in the release profile. -/
def cubeSegments (segments : UInt32) : List (List UInt8) → Bool
  | [] => segments == 6
  | seg :: rest => if seg.length != 1 || !isOctalDigit (seg.headD 0) then false else cubeSegments (segments + 1) rest

def cube47dOk (s : String) : Bool := cubeSegments 0 ((utf8 s).splitOn 45)

/-- The digits of `u32::from_str`, refused on overflow. -/
def parseDigits (acc : Nat) : List UInt8 → Option Nat
  | [] => some acc
  | b :: rest =>
    if isAsciiDigit b then
      if acc * 10 + (b.toNat - 48) < 2 ^ 32 then parseDigits (acc * 10 + (b.toNat - 48)) rest else none
    else none

/-- `str::parse::<u32>`: one plus sign may stand in front. -/
def parseU32 (s : String) : Option Nat :=
  match utf8 s with
  | [] => none
  | first :: rest =>
    if rest.isEmpty && (first == 43 || first == 45) then none
    else if first == 43 then parseDigits 0 rest
    else parseDigits 0 (first :: rest)

def ttlOk (s : String) : Bool :=
  match parseU32 s with
  | some t => 1 ≤ t && t ≤ 86400
  | none => false

/-- The table `HEX`. -/
def hexTable : List UInt8 := utf8 "0123456789abcdef"

def rowHashMatches (digestFirst8 : List UInt8) (expected : String) : Bool :=
  let eb := utf8 expected
  if eb.length ≠ 16 ∨ digestFirst8.length < 8 then false
  else
    (List.range 8).all fun i =>
      let hi := hexTable.getD (digestFirst8.getD i 0 >>> 4).toNat 0
      let lo := hexTable.getD (digestFirst8.getD i 0 &&& 0x0f).toNat 0
      eb.getD (2 * i) 0 == hi && eb.getD (2 * i + 1) 0 == lo

namespace FedenvView

/-- The eleven required fields, in the order of their check. -/
def required (env : FedenvView) : List String :=
  [env.callerPid, env.target, env.verb, env.payload, env.backAddress, env.cube47d, env.glyph5, env.cosignToken,
    env.ttlSeconds, env.antecedents, env.rowHash]

/-- What is hashed in strict mode: the four fields back to back. -/
def hashed (env : FedenvView) (ts : String) : List UInt8 :=
  utf8 "FEDENV|" ++ utf8 env.callerPid ++ utf8 env.verb ++ utf8 env.payload ++ utf8 ts

end FedenvView

def validate (env : FedenvView) : Except RejectReason Unit :=
  if env.required.any String.isEmpty then .error .malformed
  else if !targetPrefixes.any (startsWith env.target) then .error .unresolvableTarget
  else if (utf8 env.payload).length > maxPayloadBytes then .error .payloadTooLarge
  else if !cube47dOk env.cube47d then .error .malformed
  else if env.glyph5.length < 5 then .error .malformed
  else if !ttlOk env.ttlSeconds then .error .malformed
  else if !isHex16 env.rowHash || !isHex16 env.antecedents then .error .malformed
  else if !(contains (utf8 cosignWindow) (utf8 env.cosignToken) || contains (utf8 cosignWindowV3) (utf8 env.cosignToken) ||
      contains (utf8 adminOverride) (utf8 env.cosignToken)) then .error .expiredCosign
  else
    match env.ts with
    | none => .ok ()
    | some ts =>
      if !rowHashMatches ((Sha256.digest (env.hashed ts)).toList.take 8) env.rowHash then .error .rowHashMismatch
      else .ok ()

def resolveTarget (target : String) : Option RouteKind :=
  if startsWith target "pid:H" then some .pidRouted
  else if startsWith target "cli:" then some .cli
  else if startsWith target "citizen:" then some .citizen
  else if startsWith target "antigravity:" then some .antigravity
  else if startsWith target "daemon:" then some .daemon
  else if startsWith target "google:" then some .google
  else if startsWith target "meta:" then some .metaSlot
  else none

end Asolaria.Envelope.Fedenv
