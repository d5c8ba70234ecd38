import Asolaria.Library.Search
import Asolaria.Library.Template
import Asolaria.Surface.Http

namespace Asolaria.Surface
open Library

/-- What the probes of `live_status` bring in: the bodies of the answers, with
nothing where a service did not answer. -/
structure Probes where
  tsUnix : UInt64
  seat : String
  host : Option String
  kernel : Option String
  vault : Option String
  bus : Option String
  fabric : Option String

/-- `kver` and `kanchor`. -/
structure KernelFields where
  version : List Char
  anchor : List Char
  deriving DecidableEq, Repr

def KernelFields.field (fields : KernelFields) (f : List Char) : KernelFields :=
  let fields :=
    match stripPrefix "version=".toList f with
    | some v => { fields with version := v }
    | none => fields
  match stripPrefix "anchor_pid=".toList f with
  | some v => { fields with anchor := v }
  | none => fields

def KernelFields.line (fields : KernelFields) (line : List Char) : KernelFields :=
  match stripPrefix "HOST8KERNEL|".toList line with
  | some rest => (rest.splitOn '|').foldl KernelFields.field fields
  | none => fields

def kernelFields (kernel : String) : KernelFields := (lines kernel.toList).foldl KernelFields.line ⟨['-'], ['-']⟩

def inboxDepth (bus : String) : List Char :=
  match find "\"inbox_depth\":".toList bus.toList with
  | some i =>
    let n := (bus.toList.drop (i + 14)).takeWhile Char.isDigit
    if n.isEmpty then ['-'] else n
  | none => ['-']

def fabricPortForContext (seat : String) (host : Option String) : Nat :=
  let seat := seat.toList.map Char.toLower
  let host := (host.getD "").toList.map Char.toLower
  if contains "liris".toList seat || contains "ptsqtie".toList host || contains "liris".toList host then 4944 else 4949

def b (v : Bool) : String := if v then "1" else "0"

/-- What the status says. -/
structure LiveFields where
  tsUnix : UInt64
  seat : List Char
  kernelUp : Bool
  version : List Char
  anchor : List Char
  recallUp : Bool
  busUp : Bool
  inbox : List Char
  fabricPort : Nat
  fabricUp : Bool
  deriving DecidableEq, Repr

def liveFields (probes : Probes) : LiveFields :=
  let kernel := probes.kernel.getD ""
  let bus := probes.bus.getD ""
  { tsUnix := probes.tsUnix
    seat := probes.seat.toList
    kernelUp := !kernel.isEmpty
    version := (kernelFields kernel).version
    anchor := (kernelFields kernel).anchor
    recallUp := probes.vault.isSome
    busUp := !bus.isEmpty
    inbox := inboxDepth bus
    fabricPort := fabricPortForContext probes.seat probes.host
    fabricUp := probes.fabric.isSome }

/-- The fixed texts behind the fields of the status. -/
def liveLiterals : List (List Char) :=
  ["|seat=".toList, "\nKERNEL|port=5088|up=".toList, "|version=".toList, "|anchor=".toList,
    "\nRECALL|port=4796|up=".toList, "|role=local-inverted-index-vault\nBUS|port=4947|up=".toList,
    "|inbox_depth=".toList, "\nFABRIC|port=".toList, "|up=".toList,
    ("|role=super-dashboard\n" ++
      "SOVLINUX|role=local-sovereignty-vault|present=unprobed|evidence=UNVERIFIED|gate=operator-witness\n").toList]

def LiveFields.parts (fields : LiveFields) : List (List Char) :=
  [Nat.toDigits 10 fields.tsUnix.toNat, fields.seat, (b fields.kernelUp).toList, fields.version, fields.anchor,
    (b fields.recallUp).toList, (b fields.busUp).toList, fields.inbox, Nat.toDigits 10 fields.fabricPort,
    (b fields.fabricUp).toList]

def LiveFields.text (fields : LiveFields) : List Char := fill "ASIOSLIVE|ts_unix=".toList liveLiterals fields.parts

/-- `live_status`, with the answers of the probes. -/
def liveStatus (probes : Probes) : String := String.ofList (liveFields probes).text

/-- `resolve_ident`, where `readFile` gives the text of a file that can be read. -/
def resolveIdent (envValue home : Option String) (file default : String) (readFile : String → Option String) : String :=
  match envValue.map trim with
  | some v => if v.isEmpty then fromHome else v
  | none => fromHome
where
  fromHome : String :=
    match home with
    | some home =>
      if home.isEmpty then default
      else
        match (readFile (home ++ "/.asolaria/" ++ file)).map trim with
        | some s => if s.isEmpty then default else s
        | none => default
    | none => default

end Asolaria.Surface
