import Asolaria.Library.Search
import Asolaria.Library.Text

namespace Asolaria.Pid
open Library

/-- A string slice, as its UTF-8 bytes. -/
abbrev Str := List UInt8

inductive PidErr
  | malformedFormat
  | invalidRegion
  | invalidHostCode
  | invalidActivity
  | invalidWave
  | invalidProcess
  | invalidNonce
  | unknownRole
  deriving DecidableEq, Repr

def knownRoles : List Str :=
  ["OPERATOR", "OP-JESSE", "OP-RAYSSA", "ACER", "LIRIS", "FALCON", "AETHER", "ASOLARIA-FEDERATION-REMAKE-1024"].map utf8

def isValidRole (r : Str) : Bool := knownRoles.any (· == r)

/-- One of the bytes `G`, `H`, `F` and `D`. -/
def isValidRegion (c : UInt8) : Bool := c == 71 || c == 72 || c == 70 || c == 68

def isValidHexN (s : Str) (n : Nat) : Bool := s.length == n && s.all isAsciiHexdigit

def isValidHostCode (s : Str) : Bool := isValidHexN s 4

structure PidParts where
  role : Str
  region : UInt8
  hostCode : Str
  activity : Str
  wave : Str
  processTag : Option Str
  nonce : Option Str
  deriving DecidableEq, Repr

structure AnchorPidParts where
  role : Str
  date : Str
  deriving DecidableEq, Repr

inductive ParsedPid
  | canonical (parts : PidParts)
  | anchor (parts : AnchorPidParts)
  deriving DecidableEq, Repr

/-- The bytes of `-PID-`. -/
def separator : Str := [45, 80, 73, 68, 45]

/-- The check of the anchor form `YYYY-MM-DD`. -/
def isDate (tail : Str) : Bool :=
  tail.length == 10 && tail[4]? == some 45 && tail[7]? == some 45 &&
    ((tail.take 4).all isAsciiDigit && ((tail.take 7).drop 5).all isAsciiDigit && ((tail.take 10).drop 8).all isAsciiDigit)

/-- A block of a tag letter and `n` hexadecimal digits. -/
def isBlock (tag : UInt8) (n : Nat) (block : Str) : Bool := block.head? == some tag && isValidHexN (block.drop 1) n

/-- The checks of the five or three parts, in the order of the source. -/
def parseParts (role regionHost activityBlock waveBlock : Str) (suffix : Option (Str × Str)) : Except PidErr ParsedPid :=
  if regionHost.length ≠ 5 then .error .malformedFormat
  else
    let region := regionHost.headD 0
    let hostCode := regionHost.drop 1
    if !isValidRegion region then .error .invalidRegion
    else if !isValidHostCode hostCode then .error .invalidHostCode
    else if !isBlock 65 2 activityBlock then .error .invalidActivity
    else if !isBlock 87 3 waveBlock then .error .invalidWave
    else
      let parts := PidParts.mk role region hostCode (activityBlock.drop 1) (waveBlock.drop 1)
      match suffix with
      | none => .ok (.canonical (parts none none))
      | some (processBlock, nonceBlock) =>
        if !isBlock 80 2 processBlock then .error .invalidProcess
        else if !isBlock 78 5 nonceBlock then .error .invalidNonce
        else .ok (.canonical (parts (some (processBlock.drop 1)) (some (nonceBlock.drop 1))))

/-- The part of `parse_pid` behind the separator: the date form first, then
the blocks between the dashes. -/
def parseTail (role tail : Str) : Except PidErr ParsedPid :=
  if isDate tail then .ok (.anchor ⟨role, tail⟩)
  else
    match tail.splitOn 45 with
    | [regionHost, activityBlock, waveBlock] => parseParts role regionHost activityBlock waveBlock none
    | [regionHost, activityBlock, waveBlock, processBlock, nonceBlock] =>
      parseParts role regionHost activityBlock waveBlock (some (processBlock, nonceBlock))
    | _ => .error .malformedFormat

def parsePid (pid : Str) : Except PidErr ParsedPid :=
  match rfind separator pid with
  | none => .error .malformedFormat
  | some idx => parseTail (pid.take idx) (pid.drop (idx + 5))

inductive PidSubclass
  | regular
  | regularExtended
  | anchor
  | hookwallCp
  | infrastructureRouting
  | pending
  deriving DecidableEq, Repr

def classifySubclass (pid : Str) : PidSubclass :=
  match parsePid pid with
  | .ok (.canonical p) => if p.processTag.isSome && p.nonce.isSome then .regularExtended else .regular
  | .ok (.anchor _) => .anchor
  | .error _ => .pending

def validatePid (pid : Str) (strictRole : Bool) : Except PidErr Unit :=
  match parsePid pid with
  | .error error => .error error
  | .ok parsed =>
    let role := match parsed with
      | .canonical p => p.role
      | .anchor p => p.role
    if strictRole && !isValidRole role then .error .unknownRole else .ok ()

def validateSubclass (pid : Str) : Except PidErr PidSubclass :=
  (validatePid pid false).map fun _ => classifySubclass pid

/-- `String::push` of `region as char`: two bytes from 128 on. -/
def pushChar (s : Str) (c : UInt8) : Str :=
  if c < 128 then s ++ [c] else s ++ [(0xc0 : UInt8) ||| (c >>> 6), (0x80 : UInt8) ||| (c &&& 0x3f)]

def mintPid (role : Str) (region : UInt8) (hostCode activity wave : Str) : Except PidErr Str :=
  if !isValidRegion region then .error .invalidRegion
  else if !isValidHostCode hostCode then .error .invalidHostCode
  else if !isValidHexN activity 2 then .error .invalidActivity
  else if !isValidHexN wave 3 then .error .invalidWave
  else .ok (pushChar (role ++ separator) region ++ hostCode ++ [45, 65] ++ activity ++ [45, 87] ++ wave)

def mintPidExtended (role : Str) (region : UInt8) (hostCode activity wave processTag nonce : Str) : Except PidErr Str :=
  match mintPid role region hostCode activity wave with
  | .error error => .error error
  | .ok s =>
    if !isValidHexN processTag 2 then .error .invalidProcess
    else if !isValidHexN nonce 5 then .error .invalidNonce
    else .ok (s ++ [45, 80] ++ processTag ++ [45, 78] ++ nonce)

def mintAnchorPid (role date : Str) : Except PidErr Str :=
  if date.length ≠ 10 then .error .malformedFormat
  else if date[4]? ≠ some 45 ∨ date[7]? ≠ some 45 then .error .malformedFormat
  else if !((date.take 4).all isAsciiDigit && ((date.take 7).drop 5).all isAsciiDigit &&
      ((date.take 10).drop 8).all isAsciiDigit) then
    .error .malformedFormat
  else .ok (role ++ separator ++ date)

end Asolaria.Pid
