import Asolaria.Library.Lines
import Asolaria.Library.Numerals
import Asolaria.Library.RustTokens

namespace Asolaria.Codegen
open Library RustTokens

/-- What the build script takes from a line of the atlas. -/
structure AtlasRow where
  cp : UInt16
  domain : List Char
  supervisor : List Char
  lane : List Char
  deriving DecidableEq, Repr

/-- One part of a line. A later part with the same key wins. -/
def AtlasRow.set (row : AtlasRow) (part : List Char) : AtlasRow :=
  match splitOnce '=' part with
  | none => row
  | some (key, val) =>
    if key = "cp".toList then { row with cp := UInt16.ofNat ((parseUnsigned UInt16.size val).getD 0) }
    else if key = "domain".toList then { row with domain := val }
    else if key = "supervisor".toList then { row with supervisor := val }
    else if key = "lane".toList then { row with lane := val }
    else row

def atlasRow (line : List Char) : AtlasRow := (line.splitOn '|').foldl AtlasRow.set ⟨0, [], [], []⟩

/-- The rows of an atlas file. -/
def atlasRows (content : List Char) : List AtlasRow :=
  ((lines content).filter fun line => "HATLASCP|".toList.isPrefixOf line).map atlasRow

def armText (cp : UInt16) (value : List Char) : List Char :=
  "        ".toList ++ Nat.toDigits 10 cp.toNat ++ " => Some(\"".toList ++ value ++ "\"),\n".toList

/-- One of the three functions, which differ in their names and in the field
that they return. -/
def functionText (name : String) (field : AtlasRow → List Char) (rows : List AtlasRow) : List Char :=
  ("pub const fn " ++ name ++ "(cp: u16) -> Option<&'static str> \x7b\n    match cp \x7b\n").toList ++
    rows.flatMap (fun row => armText row.cp (field row)) ++ "        _ => None,\n    \x7d\n\x7d\n".toList

/-- The text of `atlas_generated.rs`. -/
def generated (rows : List AtlasRow) : List Char :=
  "// AUTO-GENERATED by build.rs from atlas-canonical-1024.hbp; do not edit by hand.\n\n".toList ++
    "pub const ATLAS_CP_COUNT_FROM_HBP: u16 = ".toList ++ Nat.toDigits 10 rows.length ++ ";\n\n".toList ++
    functionText "domain_for_cp_generated" AtlasRow.domain rows ++ "\n".toList ++
    functionText "supervisor_for_cp_generated" AtlasRow.supervisor rows ++ "\n".toList ++
    functionText "lane_for_cp_generated" AtlasRow.lane rows

/-- The arms of a function that matches on a number. -/
abbrev Arms := List (Nat × List Char)

/-- The first arm of the number decides. -/
def Arms.value (arms : Arms) (cp : UInt16) : Option (List Char) := (arms.find? (·.1 = cp.toNat)).map (·.2)

/-- What the source file means. -/
structure AtlasFile where
  count : Nat
  domain : Arms
  supervisor : Arms
  lane : Arms
  deriving DecidableEq, Repr

def expect (front tokens : List Token) : Option (List Token) :=
  if front.isPrefixOf tokens then some (tokens.drop front.length) else none

def word (text : String) : Token := .word text.toList

/-- A number of type `u16`. A greater one is refused by the compiler. -/
def expectNumber : List Token → Option (Nat × List Token)
  | .word digits :: rest => (parseUnsigned UInt16.size digits).map (·, rest)
  | _ => none

def expectLiteral : List Token → Option (List Char × List Token)
  | .literal text :: rest => some (text, rest)
  | _ => none

def expectArm (tokens : List Token) : Option ((Nat × List Char) × List Token) := do
  let (n, rest) ← expectNumber tokens
  let rest ← expect [.mark '=', .mark '>', word "Some", .mark '('] rest
  let (value, rest) ← expectLiteral rest
  let rest ← expect [.mark ')', .mark ','] rest
  return ((n, value), rest)

/-- The arms up to the last one, which has no value for all other numbers. -/
def expectArms : Nat → List Token → Option (Arms × List Token)
  | 0, _ => none
  | fuel + 1, tokens =>
    match expect [word "_", .mark '=', .mark '>', word "None", .mark ','] tokens with
    | some rest => some ([], rest)
    | none => do
      let (arm, rest) ← expectArm tokens
      let (arms, rest) ← expectArms fuel rest
      return (arm :: arms, rest)

/-- The tokens in front of the number of rows. -/
def countHead : List Token :=
  [word "pub", word "const", word "ATLAS_CP_COUNT_FROM_HBP", .mark ':', word "u16", .mark '=']

/-- The tokens in front of the arms of a function. -/
def functionHead (name : String) : List Token :=
  [word "pub", word "const", word "fn", word name, .mark '(', word "cp", .mark ':', word "u16", .mark ')', .mark '-',
    .mark '>', word "Option", .mark '<', .mark '&', .mark '\x27', word "static", word "str", .mark '>', .mark '\x7b',
    word "match", word "cp", .mark '\x7b']

def expectFunction (name : String) (tokens : List Token) : Option (Arms × List Token) := do
  let rest ← expect (functionHead name) tokens
  let (arms, rest) ← expectArms rest.length rest
  let rest ← expect [.mark '\x7d', .mark '\x7d'] rest
  return (arms, rest)

/-- The source text as the compiler reads it. -/
def readAtlasFile (text : List Char) : Option AtlasFile := do
  let rest ← tokens text
  let rest ← expect countHead rest
  let (count, rest) ← expectNumber rest
  let rest ← expect [.mark ';'] rest
  let (domain, rest) ← expectFunction "domain_for_cp_generated" rest
  let (supervisor, rest) ← expectFunction "supervisor_for_cp_generated" rest
  let (lane, rest) ← expectFunction "lane_for_cp_generated" rest
  if rest.isEmpty then return ⟨count, domain, supervisor, lane⟩ else none

end Asolaria.Codegen
