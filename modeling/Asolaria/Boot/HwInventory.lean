import Asolaria.Library.Copy
import Asolaria.Library.Hex
import Asolaria.Library.Sha256
import Asolaria.Library.Text

namespace Asolaria.Boot
open Library

/-- PCI configuration space, by bus, device, function and offset. -/
abbrev PciConfig := UInt8 → UInt8 → UInt8 → UInt8 → UInt32

/-- The address is dword-aligned: the low two bits of the offset are ignored. -/
def cfgRead32 (config : PciConfig) (bus dev func off : UInt8) : UInt32 := config bus dev func (off &&& 0xFC)

def tupleCap : Nat := 512

/-- The enumeration so far. `buf` is the part of the source's buffer in front
of `len`. -/
structure HwTuple where
  buf : List UInt8
  count : UInt32
  rstVmd : Bool
  ahci : Bool
  storage : Bool
  deriving DecidableEq, Repr

def HwTuple.new : HwTuple := ⟨[], 0, false, false, false⟩

def HwTuple.push (tuple : HwTuple) (vendor device : UInt16) (classCode subclass progIf : UInt8) : HwTuple :=
  let b := [(vendor >>> 8).toUInt8, (vendor &&& 0xFF).toUInt8, (device >>> 8).toUInt8, (device &&& 0xFF).toUInt8,
    classCode, subclass]
  { buf := if tuple.buf.length + b.length ≤ tupleCap then tuple.buf ++ b else tuple.buf
    count := tuple.count + 1
    rstVmd := if vendor = 0x8086 ∧ device = 0x282A then true else tuple.rstVmd
    ahci := if classCode = 0x01 ∧ subclass = 0x06 ∧ progIf = 0x01 then true else tuple.ahci
    storage := if classCode = 0x01 then true else tuple.storage }

/-- The loop `while total % 64 != 56 { total += 1 }`, which takes fewer than
64 turns. -/
def alignTotal : Nat → Nat → Nat
  | 0, total => total
  | turns + 1, total => if total % 64 ≠ 56 then alignTotal turns (total + 1) else total

/-- The fixed message buffer of `sha256` and the length of its padded part. -/
def paddedBuffer (data : List UInt8) : List UInt8 × Nat :=
  let n := if data.length > tupleCap then tupleCap else data.length
  let msg := copyFromSlice (List.replicate 640 0) 0 (data.take n)
  let msg := msg.set n 0x80
  let total := alignTotal 64 (n + 1)
  let msg := copyFromSlice msg total (beBytes 8 (n * 8 % 2 ^ 64))
  (msg, total + 8)

/-- The message schedule, with the sum in the order of the source. -/
def extendWords (block : List UInt32) : List UInt32 :=
  (List.range 48).foldl (fun w i =>
    w ++ [w.getD i 0 + Sha256.smallSigma0 (w.getD (i + 1) 0) + w.getD (i + 9) 0 + Sha256.smallSigma1 (w.getD (i + 14) 0)])
    block

def compressWords (h : Sha256.Words) (block : List UInt32) : Sha256.Words :=
  let t := (Sha256.roundConstants.zip (extendWords block)).foldl (fun t kw => Sha256.round t kw.1 kw.2) h
  ⟨h.a + t.a, h.b + t.b, h.c + t.c, h.d + t.d, h.e + t.e, h.f + t.f, h.g + t.g, h.h + t.h⟩

/-- The fixed-buffer `sha256` of the boot crate: it reads at most `TUPLE_CAP`
bytes. -/
def sha256 (data : List UInt8) : Sha256.Digest :=
  let (msg, total) := paddedBuffer data
  let h := (List.range (total / 64)).foldl (fun h k => compressWords h (Sha256.blockAt msg k)) Sha256.initial
  Vector.ofFn fun i => (h.toList.getD (i.val / 4) 0 >>> (24 - 8 * (i.val % 4).toUInt32)).toUInt8

/-- The inner loop of `project_60d`: two digest bytes a glyph, while there is
room. -/
def takeGlyphs : List UInt8 → List UInt16 → List UInt16
  | hi :: lo :: rest, sel =>
    if sel.length < 60 then takeGlyphs rest (sel ++ [((hi.toUInt16 <<< 8) ||| lo.toUInt16) &&& 0x03FF]) else sel
  | _, sel => sel

/-- The outer loop, which takes at most one turn a glyph. -/
def projectLoop (tuple : List UInt8) : Nat → UInt32 → List UInt16 → List UInt16
  | 0, _, sel => sel
  | turns + 1, counter, sel =>
    if sel.length < 60 then
      projectLoop tuple turns (counter + 1) (takeGlyphs (sha256 (tuple ++ beBytes 4 counter.toNat)).toList sel)
    else sel

def project60d (tuple : List UInt8) : List UInt16 :=
  projectLoop (tuple.take (if tuple.length > tupleCap then tupleCap else tuple.length)) 60 0 []

def putU32 (v : UInt32) : List UInt8 := (Nat.toDigits 10 v.toNat).map fun digit => UInt8.ofNat digit.toNat

def coordBytes (coord : List UInt16) : List UInt8 := coord.flatMap fun g : UInt16 => [(g >>> 8).toUInt8, (g &&& 0xFF).toUInt8]

/-- A seat label that `build.rs` accepts. -/
structure Seat where
  label : List UInt8
  nonempty : label ≠ []
  short : label.length ≤ 32
  plain : ∀ b ∈ label, (97 ≤ b ∧ b ≤ 122) ∨ (48 ≤ b ∧ b ≤ 57) ∨ b = 45

def flag (b : Bool) : List UInt8 := if b then utf8 "1" else utf8 "0"

/-- The `BOOTPID` row. -/
def bootPidRow (t : HwTuple) (seat : Seat) (deviceDigest hwDigest : Sha256.Digest) (coord : List UInt16) : List UInt8 :=
  utf8 "  BOOTPID|device_pid=" ++ toHex (deviceDigest.toList.take 8) ++
  utf8 "|device_pid_full=" ++ toHex deviceDigest.toList ++
  utf8 "|hw_tuple_pid_full=" ++ toHex hwDigest.toList ++
  utf8 "|hw_devices=" ++ putU32 t.count ++ utf8 "|rst_vmd=" ++ flag t.rstVmd ++ utf8 "|ahci=" ++ flag t.ahci ++
  utf8 "|storage=" ++ flag t.storage ++ utf8 "|seat=" ++ seat.label ++ utf8 "|colony=" ++ seat.label ++
  utf8 "|behcs=1024|dims=60|derived_from=60d_coordinate|coord_prefix=" ++
  (utf8 ".").intercalate ((coord.take 6).map fun g => putU32 g.toUInt32) ++ utf8 "|e=0|fire=0|json=0\r\n"

/-- `emit_device_pid`: the digest it returns and the row it prints. -/
def emitDevicePid (t : HwTuple) (seat : Seat) : Sha256.Digest × List UInt8 :=
  let hwDigest := sha256 t.buf
  let coord := project60d t.buf
  let deviceDigest := sha256 (coordBytes coord)
  (deviceDigest, bootPidRow t seat deviceDigest hwDigest coord)

structure HwSummary where
  deviceDigest : Sha256.Digest
  rstVmd : Bool
  ahci : Bool
  deriving DecidableEq

/-- What the enumeration has found and printed. -/
structure HwScan where
  tuple : HwTuple
  serial : List (List UInt8)
  deriving DecidableEq, Repr

def pciLine (bus dev func : UInt8) (vendor device : UInt16) (classCode subclass progIf : UInt8) : List UInt8 :=
  utf8 "  PCI " ++ toHex [bus] ++ utf8 ":" ++ toHex [dev] ++ utf8 "." ++ [48 + func] ++ utf8 "  " ++
  toHex [(vendor >>> 8).toUInt8, (vendor &&& 0xFF).toUInt8] ++ utf8 ":" ++
  toHex [(device >>> 8).toUInt8, (device &&& 0xFF).toUInt8] ++ utf8 " class=" ++ toHex [classCode] ++ utf8 ":" ++
  toHex [subclass] ++ utf8 ":" ++ toHex [progIf] ++ utf8 "\r\n"

/-- The body of the loop over functions. The error is the early return at the
cap. -/
def scanFunc (config : PciConfig) (bus dev : UInt8) (scan : HwScan) (func : UInt8) : Except HwScan HwScan :=
  let id := cfgRead32 config bus dev func 0x00
  let vendor := (id &&& 0xFFFF).toUInt16
  if vendor = 0xFFFF then .ok scan
  else
    let device := (id >>> 16).toUInt16
    let classReg := cfgRead32 config bus dev func 0x08
    let classCode := ((classReg >>> 24) &&& 0xFF).toUInt8
    let subclass := ((classReg >>> 16) &&& 0xFF).toUInt8
    let progIf := ((classReg >>> 8) &&& 0xFF).toUInt8
    let serial := scan.serial ++ [pciLine bus dev func vendor device classCode subclass progIf]
    let tuple := scan.tuple.push vendor device classCode subclass progIf
    if tuple.count ≥ 64 then .error ⟨tuple, serial⟩ else .ok ⟨tuple, serial⟩

/-- The numbers of a loop over `0..n`. -/
def upTo (n : Nat) : List UInt8 := (List.range n).map UInt8.ofNat

/-- The body of the loop over slots. -/
def scanDev (config : PciConfig) (bus : UInt8) (scan : HwScan) (dev : UInt8) : Except HwScan HwScan :=
  let id0 := cfgRead32 config bus dev 0 0x00
  if id0 &&& 0xFFFF = 0xFFFF then .ok scan
  else
    let headerType := ((cfgRead32 config bus dev 0 0x0C >>> 16) &&& 0xFF).toUInt8
    let maxFunc := if headerType &&& 0x80 ≠ 0 then 8 else 1
    (upTo maxFunc).foldlM (scanFunc config bus dev) scan

def scanBus (config : PciConfig) (scan : HwScan) (bus : UInt8) : Except HwScan HwScan :=
  (upTo 32).foldlM (scanDev config bus) scan

def HwScan.start : HwScan := ⟨.new, [utf8 "  hwinv . PCI enumeration (0xCF8/0xCFC, read-only)\r\n"]⟩

/-- The three loops, up to their end or to the early return, and what is printed
there. -/
def enumerate (config : PciConfig) : HwScan :=
  match (upTo 256).foldlM (scanBus config) .start with
  | .error scan => { scan with serial := scan.serial ++ [utf8 "  hwinv . (capped at 64 device-functions)\r\n"] }
  | .ok scan => { scan with serial := scan.serial ++ [utf8 "  hwinv . PCI scan complete\r\n"] }

/-- `pci_scan`: the summary it returns and everything it prints. -/
def pciScan (config : PciConfig) (seat : Seat) : HwSummary × List (List UInt8) :=
  let scan := enumerate config
  let (deviceDigest, row) := emitDevicePid scan.tuple seat
  (⟨deviceDigest, scan.tuple.rstVmd, scan.tuple.ahci⟩, scan.serial ++ [row])

end Asolaria.Boot
