import Asolaria.Boot.PciScan
import Asolaria.Boot.Rows

namespace Asolaria.Boot
open Library

/-- The body of the loop over functions, with its line on the buffer of 48
bytes. The error is the early return at the cap. -/
def scanFuncChecked (config : PciConfig) (bus dev : UInt8) (scan : HwScan) (func : UInt8) :
    ExceptT HwScan Option HwScan := do
  let id := cfgRead32 config bus dev func 0x00
  let vendor := (id &&& 0xFFFF).toUInt16
  if vendor = 0xFFFF then return scan
  else
    let device := (id >>> 16).toUInt16
    let classReg := cfgRead32 config bus dev func 0x08
    let classCode := ((classReg >>> 24) &&& 0xFF).toUInt8
    let subclass := ((classReg >>> 16) &&& 0xFF).toUInt8
    let progIf := ((classReg >>> 8) &&& 0xFF).toUInt8
    let line ← ExceptT.lift (pciLineChecked bus dev func vendor device classCode subclass progIf)
    let serial := scan.serial ++ [line]
    let tuple := scan.tuple.push vendor device classCode subclass progIf
    if tuple.count ≥ 64 then throw ⟨tuple, serial⟩ else return ⟨tuple, serial⟩

def scanDevChecked (config : PciConfig) (bus : UInt8) (scan : HwScan) (dev : UInt8) : ExceptT HwScan Option HwScan :=
  let id0 := cfgRead32 config bus dev 0 0x00
  if id0 &&& 0xFFFF = 0xFFFF then return scan
  else
    let headerType := ((cfgRead32 config bus dev 0 0x0C >>> 16) &&& 0xFF).toUInt8
    let maxFunc := if headerType &&& 0x80 ≠ 0 then 8 else 1
    (upTo maxFunc).foldlM (scanFuncChecked config bus dev) scan

def scanBusChecked (config : PciConfig) (scan : HwScan) (bus : UInt8) : ExceptT HwScan Option HwScan :=
  (upTo 32).foldlM (scanDevChecked config bus) scan

def enumerateChecked (config : PciConfig) : Option HwScan := do
  match ← ((upTo 256).foldlM (scanBusChecked config) .start).run with
  | .error scan => return { scan with serial := scan.serial ++ [utf8 "  hwinv . (capped at 64 device-functions)\r\n"] }
  | .ok scan => return { scan with serial := scan.serial ++ [utf8 "  hwinv . PCI scan complete\r\n"] }

/-- `pci_scan` with every row on its buffer. -/
def pciScanChecked (config : PciConfig) (seat : Seat) : Option (HwSummary × List (List UInt8)) := do
  let scan ← enumerateChecked config
  let (deviceDigest, row) ← emitDevicePidChecked scan.tuple seat
  return (⟨deviceDigest, scan.tuple.rstVmd, scan.tuple.ahci⟩, scan.serial ++ [row])

variable (config : PciConfig)

theorem scanFuncChecked_eq (bus dev : UInt8) (scan : HwScan) (func : UInt8) :
    (scanFuncChecked config bus dev scan func).run = some (scanFunc config bus dev scan func) := by
  unfold scanFuncChecked scanFunc
  dsimp only
  split
  · rfl
  · simp only [pciLineChecked_eq]
    split <;> rfl

theorem scanDevChecked_eq (bus : UInt8) (scan : HwScan) (dev : UInt8) :
    (scanDevChecked config bus scan dev).run = some (scanDev config bus scan dev) := by
  unfold scanDevChecked scanDev
  dsimp only
  split
  · rfl
  · exact run_foldlM_eq_some (scanFuncChecked_eq config bus dev) _ scan

theorem scanBusChecked_eq (scan : HwScan) (bus : UInt8) :
    (scanBusChecked config scan bus).run = some (scanBus config scan bus) :=
  run_foldlM_eq_some (scanDevChecked_eq config bus) _ scan

theorem enumerateChecked_eq : enumerateChecked config = some (enumerate config) := by
  have looped := run_foldlM_eq_some (scanBusChecked_eq config) (upTo 256) .start
  unfold enumerateChecked enumerate
  rw [looped]
  generalize (upTo 256).foldlM (scanBus config) HwScan.start = ended
  cases ended with
  | error scan => rfl
  | ok scan => rfl

theorem count_enumerate_le : (enumerate config).tuple.count.toNat ≤ 64 := by
  rw [(tupleOf_enumerate config).count]
  exact List.length_take_le 64 _

/-- No row of the enumeration is too long for its buffer. -/
theorem pciScanChecked_eq (seat : Seat) : pciScanChecked config seat = some (pciScan config seat) := by
  have capped := count_enumerate_le config
  unfold pciScanChecked pciScan
  rw [enumerateChecked_eq]
  generalize enumerate config = scan at capped ⊢
  rw [Option.bind_eq_bind, Option.bind_some, emitDevicePidChecked_eq capped seat]
  rfl

end Asolaria.Boot
