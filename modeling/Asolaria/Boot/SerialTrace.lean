import Asolaria.Boot.BootReceipts
import Asolaria.Boot.EfiMain
import Asolaria.Library.Guard
import Asolaria.Library.Lines

namespace Asolaria.Boot
open Library BootLines

/-- A text of printable ASCII. -/
def Printable (text : List UInt8) : Prop := ∀ b ∈ text, 32 ≤ b ∧ b ≤ 126

instance (text : List UInt8) : Decidable (Printable text) := List.decidableBAll _ text

/-- A row as it belongs on the port: printable, and ended once. -/
def WholeLine (line : List UInt8) : Prop := ∃ text, line = text ++ [13, 10] ∧ Printable text

def PciFunction.line (f : PciFunction) : List UInt8 :=
  pciLine f.bus f.dev f.func f.vendor f.device f.classCode f.subclass f.progIf

/-- The rows of the enumeration. -/
def pciRows (config : PciConfig) (seat : Seat) : List (List UInt8) :=
  utf8 "  hwinv . PCI enumeration (0xCF8/0xCFC, read-only)\r\n" ::
    (((presentFunctions config).take 64).map PciFunction.line ++
      [if 64 ≤ (presentFunctions config).length then utf8 "  hwinv . (capped at 64 device-functions)\r\n"
        else utf8 "  hwinv . PCI scan complete\r\n",
      (emitDevicePid (enumerate config).tuple seat).2])

def rstVmdRow (hw : HwSummary) : Vector UInt8 8 → BootTime → Seat → List UInt8 :=
  driverRow (utf8 "  BOOTDRIVER|driver=intel-rst-vmd|match=8086:282A|device_pid=")
    (if hw.rstVmd then utf8 "GATED_MATCH|vmd_walk=TODO_next_step" else utf8 "NOT_APPLICABLE|no_8086:282A_on_this_device")
    hw.deviceDigest

def ahciRow (hw : HwSummary) : Vector UInt8 8 → BootTime → Seat → List UInt8 :=
  driverRow (utf8 "  BOOTDRIVER|driver=sata-ahci|match=class01:06:01|device_pid=")
    (if hw.ahci then utf8 "GATED_MATCH|ahci_bringup=TODO_next_step" else utf8 "NOT_APPLICABLE|no_sata_ahci_on_this_device")
    hw.deviceDigest

/-- The rows of the identity and of the drivers. -/
def receiptRows (hw : HwSummary) (bt : BootTime) (seat : Seat) : List (List UInt8) :=
  let bootPid := (sha256 (bootprojText hw.deviceDigest bt)).toList.take 8
  [bootTimeRow bt, bootProjRow bootPid hw.deviceDigest bt, rstVmdRow hw (pidBytes bootPid) bt seat,
    ahciRow hw (pidBytes bootPid) bt seat]

def Machine.bootTime (machine : Machine) : BootTime := readBootTime machine.cmosRead machine.tsc

/-- The rows of a boot in their order. -/
def bootRows (machine : Machine) (seat : Seat) : List (List UInt8) :=
  [utf8 "\r\n", bannerFirst, bannerSecond, utf8 "\r\n", statusLine machine.observations ++ utf8 "\r\n",
    bootSeatRow seat ++ utf8 "\r\n"] ++ pciRows machine.config seat ++
    receiptRows (pciScan machine.config seat).1 machine.bootTime seat

section Printing
variable {front back line : List UInt8}

theorem printable_append : Printable (front ++ back) ↔ Printable front ∧ Printable back := List.forall_mem_append

/-- What is printable in front of a line neither ends it nor breaks it. -/
theorem wholeLine_append (printable : Printable front) : WholeLine (front ++ line) ↔ WholeLine line := by
  constructor
  · rintro ⟨text, same, plain⟩
    rcases List.append_eq_append_iff.mp same with ⟨rest, rfl, ended⟩ | ⟨rest, rfl, ended⟩
    · exact ⟨rest, ended, (printable_append.mp plain).2⟩
    · cases rest with
      | nil => exact ⟨[], ended.symm, fun b member => absurd member List.not_mem_nil⟩
      | cons b rest =>
        obtain ⟨rfl, -⟩ := List.cons.inj ended
        exact absurd ((printable_append.mp printable).2 13 List.mem_cons_self).1 (by decide)
  · rintro ⟨text, rfl, plain⟩
    exact ⟨front ++ text, (List.append_assoc ..).symm, printable_append.mpr ⟨printable, plain⟩⟩

theorem WholeLine.of_check (ended : line.drop (line.length - 2) = [13, 10])
    (printable : Printable (line.take (line.length - 2))) : WholeLine line :=
  ⟨_, by rw [← ended, List.take_append_drop], printable⟩

/-- Whole lines are found again in what is sent. -/
theorem piecesThrough_wholeLines {rows : List (List UInt8)} (whole : ∀ row ∈ rows, WholeLine row) :
    piecesThrough 10 rows.flatten = rows := by
  refine piecesThrough_flatten fun row member => ?_
  obtain ⟨text, rfl, printable⟩ := whole row member
  refine ⟨text ++ [13], (List.append_assoc text [13] [10]).symm, fun feed => ?_⟩
  rcases List.mem_append.mp feed with inside | last
  · exact absurd (printable 10 inside).1 (by decide)
  · exact absurd last (by decide)

theorem printable_hexDigit : ∀ n < 16, Printable [hexDigit n] := by decide

theorem printable_toHex (bytes : List UInt8) : Printable (toHex bytes) := by
  induction bytes with
  | nil => exact fun b member => absurd member List.not_mem_nil
  | cons byte rest ih =>
    have high := printable_hexDigit (byte.toNat / 16) (by have := byte.toNat_lt; omega)
    have low := printable_hexDigit (byte.toNat % 16) (Nat.mod_lt _ (by decide))
    exact printable_append.mpr ⟨high, printable_append.mpr ⟨low, ih⟩⟩

theorem printable_decimalBytes (n : Nat) : Printable (decimalBytes n) := by
  intro b member
  obtain ⟨low, high⟩ := digit_of_mem_decimalBytes member
  exact ⟨UInt8.le_trans (by decide) low, UInt8.le_trans high (by decide)⟩

theorem printable_label (seat : Seat) : Printable seat.label := by
  intro b member
  have bounds := seat.plain b member
  simp only [UInt8.le_iff_toNat_le, ← UInt8.toNat_inj] at bounds ⊢
  change (97 ≤ b.toNat ∧ b.toNat ≤ 122) ∨ (48 ≤ b.toNat ∧ b.toNat ≤ 57) ∨ b.toNat = 45 at bounds
  change 32 ≤ b.toNat ∧ b.toNat ≤ 126
  omega

theorem printable_flag (b : Bool) : Printable (flag b) := by
  cases b with
  | false => decide
  | true => decide

theorem printable_digit (n : Nat) : Printable [48 + UInt8.ofNat (n % 10)] := by
  have digits : ∀ n < 10, Printable [48 + UInt8.ofNat n] := by decide
  exact digits _ (Nat.mod_lt n (by decide))

theorem printable_utc (bt : BootTime) : Printable bt.utc := by
  have two (v : UInt8) : Printable (twoDigits v) := by
    rw [twoDigits_eq]
    exact printable_append.mpr ⟨printable_digit (v.toNat / 10), printable_digit v.toNat⟩
  have four : Printable (fourDigits bt.year) := by
    rw [fourDigits_eq]
    exact printable_append.mpr ⟨printable_digit (bt.year.toNat / 1000), printable_append.mpr
      ⟨printable_digit (bt.year.toNat / 100), printable_append.mpr
        ⟨printable_digit (bt.year.toNat / 10), printable_digit bt.year.toNat⟩⟩⟩
  have mark (b : UInt8) (rest : List UInt8) (here : Printable [b]) (behind : Printable rest) : Printable (b :: rest) :=
    printable_append.mpr ⟨here, behind⟩
  unfold BootTime.utc
  refine printable_append.mpr ⟨four, mark 45 _ (by decide) ?_⟩
  refine printable_append.mpr ⟨two bt.month, mark 45 _ (by decide) ?_⟩
  refine printable_append.mpr ⟨two bt.day, mark 84 _ (by decide) ?_⟩
  refine printable_append.mpr ⟨two bt.hour, mark 58 _ (by decide) ?_⟩
  refine printable_append.mpr ⟨two bt.min, mark 58 _ (by decide) ?_⟩
  exact printable_append.mpr ⟨two bt.sec, by decide⟩

theorem printable_flatMap {α : Type} {items : List α} {text : α → List UInt8} (printable : ∀ a ∈ items, Printable (text a)) :
    Printable (items.flatMap text) := by
  intro b member
  obtain ⟨a, item, inside⟩ := List.mem_flatMap.mp member
  exact printable a item b inside

theorem printable_dotted {texts : List (List UInt8)} (printable : ∀ text ∈ texts, Printable text) :
    Printable ((utf8 ".").intercalate texts) := by
  cases texts with
  | nil => exact fun b member => absurd member List.not_mem_nil
  | cons first rest =>
    obtain ⟨here, others⟩ := List.forall_mem_cons.mp printable
    rw [intercalate_eq_flatMap]
    exact printable_append.mpr ⟨here, printable_flatMap fun text member => printable_append.mpr ⟨by decide, others text member⟩⟩

/-- The texts between the fields of the status line, and those of the other
rows. -/
theorem printable_labels :
    Printable (utf8 "ASOBTDIAG|format=hbpish|evidence=MEASURED_BOOT|source=uefi|seat=unknown|receipt=unsealed|tuple=boot:diag:early|stage=") ∧
    Printable (utf8 "|uefi=") ∧ Printable (utf8 "|conout=") ∧ Printable (utf8 "|bs=") ∧ Printable (utf8 "|gop=") ∧
    Printable (utf8 "|fb=") ∧ Printable (utf8 "|fbbase=") ∧ Printable (utf8 "|fblayout=") ∧ Printable (utf8 "|sb=") ∧
    Printable (utf8 "|loader=") := by
  decide +kernel

theorem printable_texts :
    Printable (utf8 "  PCI ") ∧ Printable (utf8 ":") ∧ Printable (utf8 ".") ∧ Printable (utf8 "  ") ∧
    Printable (utf8 " class=") ∧ Printable (utf8 "  BOOTPID|device_pid=") ∧ Printable (utf8 "|device_pid_full=") ∧
    Printable (utf8 "|hw_tuple_pid_full=") ∧ Printable (utf8 "|hw_devices=") ∧ Printable (utf8 "|rst_vmd=") ∧
    Printable (utf8 "|ahci=") ∧ Printable (utf8 "|storage=") ∧ Printable (utf8 "|seat=") ∧
    Printable (utf8 "|colony=") ∧ Printable (utf8 "|behcs=1024|dims=60|derived_from=60d_coordinate|coord_prefix=") ∧
    Printable (utf8 "  BOOTTIME|utc=") ∧ Printable (utf8 "|tsc=") ∧ Printable (utf8 "  BOOTPROJ|boot_pid=") ∧
    Printable (utf8 "|device_pid=") ∧ Printable (utf8 "|boot_pid=") ∧ Printable (utf8 "|utc=") ∧
    Printable (utf8 "|status=") ∧ Printable (utf8 "  BOOTDRIVER|driver=intel-rst-vmd|match=8086:282A|device_pid=") ∧
    Printable (utf8 "  BOOTDRIVER|driver=sata-ahci|match=class01:06:01|device_pid=") ∧
    Printable (utf8 "GATED_MATCH|vmd_walk=TODO_next_step") ∧
    Printable (utf8 "NOT_APPLICABLE|no_8086:282A_on_this_device") ∧
    Printable (utf8 "GATED_MATCH|ahci_bringup=TODO_next_step") ∧
    Printable (utf8 "NOT_APPLICABLE|no_sata_ahci_on_this_device") ∧
    Printable (utf8 Codegen.rowFront) ∧ Printable (utf8 Codegen.rowRest) := by
  decide +kernel

/-- The texts that end a row. -/
theorem wholeLine_ends :
    WholeLine (utf8 "\r\n") ∧ WholeLine (utf8 "|e=0|fire=0|json=0\r\n") ∧
    WholeLine (utf8 "|writes=0|e=0|fire=0|json=0\r\n") ∧ WholeLine (utf8 "|src=cmos_rtc+tsc|e=0|json=0\r\n") ∧
    WholeLine (utf8 "|volatile=1|stable_ref=device_pid|e=0|fire=0|json=0\r\n") ∧
    WholeLine (utf8 "  hwinv . PCI enumeration (0xCF8/0xCFC, read-only)\r\n") ∧
    WholeLine (utf8 "  hwinv . (capped at 64 device-functions)\r\n") ∧
    WholeLine (utf8 "  hwinv . PCI scan complete\r\n") ∧ WholeLine bannerFirst ∧ WholeLine bannerSecond :=
  ⟨.of_check (by decide +kernel) (by decide +kernel),
    .of_check (by decide +kernel) (by decide +kernel),
    .of_check (by decide +kernel) (by decide +kernel),
    .of_check (by decide +kernel) (by decide +kernel),
    .of_check (by decide +kernel) (by decide +kernel),
    .of_check (by decide +kernel) (by decide +kernel),
    .of_check (by decide +kernel) (by decide +kernel),
    .of_check (by decide +kernel) (by decide +kernel),
    .of_check (by decide +kernel) (by decide +kernel),
    .of_check (by decide +kernel) (by decide +kernel)⟩

theorem printable_statusLine (observations : BootObservations) : Printable (statusLine observations) := by
  have truth (b : Bool) : Printable (Push.bool b).bytes := by
    cases b with
    | false => decide
    | true => decide
  have stage (stage : BootStage) : Printable (utf8 stage.asWire) := by cases stage <;> decide +kernel
  have format (format : PixelFormat) : Printable (utf8 format.asWire) := by cases format <;> decide +kernel
  have secure (secure : SecureBootState) : Printable (utf8 secure.asWire) := by cases secure <;> decide +kernel
  have loader (loader : LoaderPathClass) : Printable (utf8 loader.asWire) := by cases loader <;> decide +kernel
  rw [statusLine_eq]
  refine printable_flatMap fun row member => printable_append.mpr ?_
  simp only [statusRows, List.mem_cons, List.not_mem_nil, or_false] at member
  rcases member with rfl | rfl | rfl | rfl | rfl | rfl | rfl | rfl | rfl | rfl | rfl | rfl | rfl
  all_goals dsimp only
  · exact ⟨by simp only [printable_labels], stage _⟩
  · exact ⟨by simp only [printable_labels], truth _⟩
  · exact ⟨by simp only [printable_labels], truth _⟩
  · exact ⟨by simp only [printable_labels], truth _⟩
  · exact ⟨by simp only [printable_labels], truth _⟩
  · exact ⟨by simp only [printable_labels], printable_decimalBytes _⟩
  · exact ⟨by decide, printable_decimalBytes _⟩
  · exact ⟨by decide, format _⟩
  · exact ⟨by decide, printable_decimalBytes _⟩
  · exact ⟨by simp only [printable_labels], truth _⟩
  · exact ⟨by simp only [printable_labels], truth _⟩
  · exact ⟨by simp only [printable_labels], secure _⟩
  · exact ⟨by simp only [printable_labels], loader _⟩

end Printing

section Rows
variable (config : PciConfig) (seat : Seat)

theorem wholeLine_pciLine {f : PciFunction} (small : f.func < 8) : WholeLine f.line := by
  have funcs : ∀ func < 8, Printable [48 + UInt8.ofNat func] := by decide
  have func : Printable [48 + f.func] := by
    have here := funcs f.func.toNat (UInt8.lt_iff_toNat_lt.mp small)
    rwa [UInt8.ofNat_toNat] at here
  unfold PciFunction.line pciLine
  simp only [List.append_assoc, wholeLine_append, printable_texts, printable_toHex, func, wholeLine_ends]

theorem wholeLine_bootPidRow (t : HwTuple) (deviceDigest hwDigest : Sha256.Digest) (coord : List UInt16) :
    WholeLine (bootPidRow t seat deviceDigest hwDigest coord) := by
  have counted : Printable (putU32 t.count) := printable_decimalBytes _
  have glyphs : Printable ((utf8 ".").intercalate ((coord.take 6).map fun g => putU32 g.toUInt32)) := by
    refine printable_dotted fun text member => ?_
    obtain ⟨g, _, rfl⟩ := List.mem_map.mp member
    exact printable_decimalBytes _
  unfold bootPidRow
  simp only [List.append_assoc, wholeLine_append, printable_texts, printable_toHex, counted, printable_flag,
    printable_label, glyphs, wholeLine_ends]

theorem wholeLine_driverRow {head status : List UInt8} (front : Printable head) (told : Printable status)
    (deviceDigest : Sha256.Digest) (bootPid : Vector UInt8 8) (bt : BootTime) :
    WholeLine (driverRow head status deviceDigest bootPid bt seat) := by
  unfold driverRow
  simp only [wholeLine_append, front, printable_texts, printable_toHex, printable_utc, printable_label, told,
    wholeLine_ends]

theorem wholeLine_bootTimeRow (bt : BootTime) : WholeLine (bootTimeRow bt) := by
  unfold bootTimeRow
  simp only [wholeLine_append, printable_texts, printable_utc, printable_decimalBytes, wholeLine_ends]

theorem wholeLine_bootProjRow (bootPid : List UInt8) (deviceDigest : Sha256.Digest) (bt : BootTime) :
    WholeLine (bootProjRow bootPid deviceDigest bt) := by
  unfold bootProjRow
  simp only [wholeLine_append, printable_texts, printable_toHex, printable_utc, wholeLine_ends]

theorem func_of_present {config : PciConfig} {f : PciFunction} (member : f ∈ presentFunctions config) : f.func < 8 := by
  have numbers : ∀ func ∈ upTo 8, func < 8 := forall_mem_of_all (by decide)
  obtain ⟨bus, _, member⟩ := List.mem_flatMap.mp member
  obtain ⟨dev, _, member⟩ := List.mem_flatMap.mp member
  obtain ⟨func, number, rfl⟩ := List.mem_map.mp member
  exact numbers func (List.mem_filter.mp number).1

theorem serial_visited (functions : List PciFunction) (scan : HwScan) :
    (functions.foldl HwScan.visit scan).serial = scan.serial ++ functions.map PciFunction.line := by
  induction functions generalizing scan with
  | nil => rw [List.map_nil, List.append_nil, List.foldl_nil]
  | cons f rest ih =>
    rw [List.foldl_cons, ih, List.map_cons, ← List.singleton_append, ← List.append_assoc]
    rfl

theorem row_emitDevicePid (t : HwTuple) : (emitDevicePid t seat).2 =
    bootPidRow t seat (sha256 (coordBytes (project60d t.buf))) (sha256 t.buf) (project60d t.buf) := rfl

/-- What the enumeration prints. -/
theorem serial_pciScan : (pciScan config seat).2 = pciRows config seat := by
  have grows (scan : HwScan) (f : PciFunction) (room : scan.tuple.count.toNat < 64) :
      (scan.visit f).tuple.count.toNat = scan.tuple.count.toNat + 1 := count_push (by omega)
  have full_iff (scan : HwScan) : scan.Full ↔ 64 ≤ scan.tuple.count.toNat := UInt32.le_iff_toNat_le
  have empty : HwScan.start.tuple.count.toNat < 64 := by decide
  have scanned := foldlM_collect grows full_iff (presentFunctions config) empty
  have cap : 64 - HwScan.start.tuple.count.toNat = 64 := rfl
  have printed := serial_visited ((presentFunctions config).take 64) .start
  rw [cap, ← foldlM_scanBus] at scanned
  have serial : (enumerate config).serial = HwScan.start.serial ++ ((presentFunctions config).take 64).map PciFunction.line ++
      [if 64 ≤ (presentFunctions config).length then utf8 "  hwinv . (capped at 64 device-functions)\r\n"
        else utf8 "  hwinv . PCI scan complete\r\n"] := by
    unfold enumerate
    rw [scanned]
    by_cases capped : 64 ≤ (presentFunctions config).length
    · rw [if_pos capped, if_pos capped, ← printed]
    · rw [if_neg capped, if_neg capped, ← printed]
  have whole : (pciScan config seat).2 = (enumerate config).serial ++ [(emitDevicePid (enumerate config).tuple seat).2] := rfl
  have header : HwScan.start.serial = [utf8 "  hwinv . PCI enumeration (0xCF8/0xCFC, read-only)\r\n"] := rfl
  rw [whole, serial, header, pciRows, List.append_assoc, List.append_assoc, List.singleton_append, List.singleton_append]

theorem wholeLine_pciRows : ∀ row ∈ pciRows config seat, WholeLine row := by
  have header : WholeLine (utf8 "  hwinv . PCI enumeration (0xCF8/0xCFC, read-only)\r\n") := by
    simp only [wholeLine_ends]
  have closing : WholeLine (if 64 ≤ (presentFunctions config).length then utf8 "  hwinv . (capped at 64 device-functions)\r\n"
      else utf8 "  hwinv . PCI scan complete\r\n") := by
    split
    · simp only [wholeLine_ends]
    · simp only [wholeLine_ends]
  have pid : WholeLine (emitDevicePid (enumerate config).tuple seat).2 := by
    rw [row_emitDevicePid]
    exact wholeLine_bootPidRow seat _ _ _ _
  have lines : ∀ row ∈ ((presentFunctions config).take 64).map PciFunction.line, WholeLine row := by
    intro row member
    obtain ⟨f, taken, rfl⟩ := List.mem_map.mp member
    exact wholeLine_pciLine (func_of_present (List.mem_of_mem_take taken))
  rw [pciRows, List.forall_mem_cons, List.forall_mem_append, List.forall_mem_cons, List.forall_mem_singleton]
  exact ⟨header, lines, closing, pid⟩

theorem diagnosticRow_eq (observations : BootObservations) :
    diagnosticRow observations = some (statusLine observations ++ utf8 "\r\n") := by
  have fits : (statusLine observations).length ≤ (Slice.zeros 384 (by decide)).bytes.length := by
    rw [Slice.zeros, List.length_replicate]
    exact length_statusLine_le observations
  have rendered := renderStatusLine_whole fits
  generalize statusLine observations = line at rendered
  rw [diagnosticRow, rendered]
  simp only [Option.bind_eq_bind, Option.bind_some]
  rw [sliceChecked_zero (by rw [List.length_append]; exact Nat.le_add_right _ _), List.take_left' rfl]
  rfl

end Rows

variable (machine : Machine) (seat : Seat)

theorem wholeLine_receiptRows (hw : HwSummary) (bt : BootTime) : ∀ row ∈ receiptRows hw bt seat, WholeLine row := by
  have status {isMatch : Bool} {matched missing : List UInt8} (found : Printable matched) (absent : Printable missing) :
      Printable (if isMatch then matched else missing) := by
    split
    · exact found
    · exact absent
  have rst (bootPid : Vector UInt8 8) : WholeLine (rstVmdRow hw bootPid bt seat) :=
    wholeLine_driverRow seat (by simp only [printable_texts])
      (status (by simp only [printable_texts]) (by simp only [printable_texts])) ..
  have ahci (bootPid : Vector UInt8 8) : WholeLine (ahciRow hw bootPid bt seat) :=
    wholeLine_driverRow seat (by simp only [printable_texts])
      (status (by simp only [printable_texts]) (by simp only [printable_texts])) ..
  rw [receiptRows, List.forall_mem_cons, List.forall_mem_cons, List.forall_mem_cons, List.forall_mem_singleton]
  exact ⟨wholeLine_bootTimeRow _, wholeLine_bootProjRow .., rst _, ahci _⟩

theorem wholeLine_bootRows : ∀ row ∈ bootRows machine seat, WholeLine row := by
  have crlf : WholeLine (utf8 "\r\n") := by simp only [wholeLine_ends]
  have first : WholeLine bannerFirst := by simp only [wholeLine_ends]
  have second : WholeLine bannerSecond := by simp only [wholeLine_ends]
  have status : WholeLine (statusLine machine.observations ++ utf8 "\r\n") :=
    (wholeLine_append (printable_statusLine _)).mpr crlf
  have seated : WholeLine (bootSeatRow seat ++ utf8 "\r\n") := by
    unfold bootSeatRow
    simp only [List.append_assoc, wholeLine_append, printable_texts, printable_label, wholeLine_ends]
  rw [bootRows, List.forall_mem_append, List.forall_mem_append, List.forall_mem_cons, List.forall_mem_cons,
    List.forall_mem_cons, List.forall_mem_cons, List.forall_mem_cons, List.forall_mem_singleton]
  exact ⟨⟨⟨crlf, first, second, crlf, status, seated⟩, wholeLine_pciRows _ seat⟩, wholeLine_receiptRows seat _ _⟩

theorem rstVmdProbe_row (hw : HwSummary) (bootPid : Vector UInt8 8) (bt : BootTime) :
    rstVmdProbe hw bootPid bt seat = some (rstVmdRow hw bootPid bt seat) :=
  driverProbe_eq hw.rstVmd (by decide +kernel) hw.deviceDigest bootPid bt seat

theorem ahciProbe_row (hw : HwSummary) (bootPid : Vector UInt8 8) (bt : BootTime) :
    ahciProbe hw bootPid bt seat = some (ahciRow hw bootPid bt seat) :=
  driverProbe_eq hw.ahci (by decide +kernel) hw.deviceDigest bootPid bt seat

/-- No row is too long for its buffer, so what is sent are the rows. -/
theorem efiMain_eq : efiMain machine seat = some (bootRows machine seat).flatten := by
  rw [efiMain, diagnosticRow_eq]
  simp only [Option.bind_eq_bind, Option.bind_some, pciScanChecked_eq, emitBoottime_eq, bootprojEmit_eq, rstVmdProbe_row, ahciProbe_row,
    serial_pciScan]
  simp only [bootRows, receiptRows, List.flatten_append, List.flatten_cons, List.flatten_nil, List.append_nil,
    List.append_assoc]
  rfl

/-- Every boot reaches the shell, and the lines on the port up to there are the
rows: one for each of the first 64 functions, and none that is broken. -/
theorem boot_trace_lines : ∃ trace, efiMain machine seat = some trace ∧
    piecesThrough 10 trace = bootRows machine seat ∧ ∀ row ∈ bootRows machine seat, WholeLine row :=
  ⟨_, efiMain_eq machine seat, piecesThrough_wholeLines (wholeLine_bootRows machine seat), wholeLine_bootRows machine seat⟩

section Told
variable {machine machine' : Machine} {seat seat' : Seat} {config config' : PciConfig} {f g : PciFunction}

theorem toHex_byte_inj {a b : UInt8} : toHex [a] = toHex [b] ↔ a = b :=
  ⟨fun same => List.singleton_inj.mp (toHex_inj same), fun same => by rw [same]⟩

theorem toHex_word_inj {v w : UInt16} : toHex [(v >>> 8).toUInt8, (v &&& 0xFF).toUInt8] =
    toHex [(w >>> 8).toUInt8, (w &&& 0xFF).toUInt8] ↔ v = w := by
  constructor
  · intro same
    have bytes := toHex_inj same
    rw [halves_eq_beBytes, halves_eq_beBytes] at bytes
    exact UInt16.toNat_inj.mp ((beBytes_inj v.toNat_lt w.toNat_lt).mp bytes)
  · rintro rfl
    rfl

/-- A line has a fixed place for every field. -/
theorem line_inj (same : f.line = g.line) : f = g := by
  have bytes (a b : UInt8) : (toHex [a]).length = (toHex [b]).length := rfl
  have one (a b : UInt8) : [48 + a].length = [48 + b].length := rfl
  have words (v w : UInt16) : (toHex [(v >>> 8).toUInt8, (v &&& 0xFF).toUInt8]).length =
      (toHex [(w >>> 8).toUInt8, (w &&& 0xFF).toUInt8]).length := rfl
  unfold PciFunction.line pciLine at same
  simp only [List.append_assoc, List.append_cancel_left_eq, append_eq_iff (bytes _ _), append_eq_iff (words _ _),
    append_eq_iff (one _ _), List.singleton_inj, UInt8.add_right_inj, toHex_byte_inj, toHex_word_inj, and_true] at same
  obtain ⟨bus, dev, func, vendor, device, classCode, subclass, progIf⟩ := same
  cases f
  cases g
  simp only [PciFunction.mk.injEq]
  exact ⟨bus, dev, func, vendor, device, classCode, subclass, progIf⟩

theorem TupleOf.unique {functions : List PciFunction} {tuple tuple' : HwTuple} (whole : TupleOf functions tuple)
    (whole' : TupleOf functions tuple') : tuple = tuple' := by
  have buf := whole.buf.trans whole'.buf.symm
  have count := UInt32.toNat_inj.mp (whole.count.trans whole'.count.symm)
  have rstVmd := Bool.eq_iff_iff.mpr (whole.rstVmd.trans whole'.rstVmd.symm)
  have ahci := Bool.eq_iff_iff.mpr (whole.ahci.trans whole'.ahci.symm)
  have storage := Bool.eq_iff_iff.mpr (whole.storage.trans whole'.storage.symm)
  cases tuple
  cases tuple'
  simp only [HwTuple.mk.injEq]
  exact ⟨buf, count, rstVmd, ahci, storage⟩

theorem tuple_eq_of_functions (same : (presentFunctions config).take 64 = (presentFunctions config').take 64) :
    (enumerate config).tuple = (enumerate config').tuple := by
  have whole := tupleOf_enumerate config
  rw [same] at whole
  exact whole.unique (tupleOf_enumerate config')

/-- The enumeration is told by its lines. -/
theorem pciRows_eq_iff : pciRows config seat = pciRows config' seat ↔
    (presentFunctions config).take 64 = (presentFunctions config').take 64 := by
  constructor
  · intro same
    rw [pciRows, pciRows, List.cons_eq_cons] at same
    have rows := (List.append_inj' same.2 (by simp only [List.length_cons, List.length_nil])).1
    exact List.map_injective_iff.mpr (fun _ _ => line_inj) rows
  · intro same
    have capped : 64 ≤ (presentFunctions config).length ↔ 64 ≤ (presentFunctions config').length := by
      have length := congrArg List.length same
      rw [List.length_take, List.length_take] at length
      omega
    rw [pciRows, pciRows, same, tuple_eq_of_functions same]
    simp only [capped]

theorem length_receiptRows (hw : HwSummary) (bt : BootTime) (seat : Seat) : (receiptRows hw bt seat).length = 4 := rfl

theorem receiptRows_congr {hw : HwSummary} {bt bt' : BootTime} (utc : bt.utc = bt'.utc) (tsc : bt.tsc = bt'.tsc) :
    receiptRows hw bt seat = receiptRows hw bt' seat := by
  have text : bootprojText hw.deviceDigest bt = bootprojText hw.deviceDigest bt' := by
    rw [bootprojText, bootprojText, utc, tsc]
  simp only [receiptRows, bootTimeRow, bootProjRow, rstVmdRow, ahciRow, driverRow, text, utc, tsc]

theorem bootSeatRow_inj (same : bootSeatRow seat = bootSeatRow seat') : seat = seat' := by
  have label := List.append_cancel_left (List.append_cancel_right same)
  cases seat
  cases seat'
  simp only [Seat.mk.injEq]
  exact label

/-- What a reader of the port can tell: two boots send the same bytes exactly
when they agree on the firmware, the first 64 functions, the clock as it is
shown, the tick and the seat. -/
theorem boot_trace_eq_iff (machine machine' : Machine) (seat seat' : Seat) :
    efiMain machine seat = efiMain machine' seat' ↔ machine.observations = machine'.observations ∧
      (presentFunctions machine.config).take 64 = (presentFunctions machine'.config).take 64 ∧
      machine.bootTime.shown = machine'.bootTime.shown ∧ machine.tsc = machine'.tsc ∧ seat = seat' := by
  have split : efiMain machine seat = efiMain machine' seat' ↔ bootRows machine seat = bootRows machine' seat' := by
    rw [efiMain_eq, efiMain_eq, Option.some_inj]
    refine ⟨fun same => ?_, fun same => by rw [same]⟩
    have pieces := congrArg (piecesThrough 10) same
    rwa [piecesThrough_wholeLines (wholeLine_bootRows machine seat),
      piecesThrough_wholeLines (wholeLine_bootRows machine' seat')] at pieces
  rw [split]
  constructor
  · intro same
    rw [bootRows, bootRows] at same
    obtain ⟨front, receipts⟩ := List.append_inj' same (by rw [length_receiptRows, length_receiptRows])
    obtain ⟨banner, pci⟩ := List.append_inj front (by simp only [List.length_cons, List.length_nil])
    simp only [List.cons.injEq, true_and, and_true, List.append_cancel_right_eq] at banner
    obtain rfl := bootSeatRow_inj banner.2
    obtain ⟨shown, tsc⟩ := bootTimeRow_inj.mp (List.cons.inj receipts).1
    exact ⟨statusLine_inj banner.1, pciRows_eq_iff.mp pci, shown, tsc, rfl⟩
  · rintro ⟨observations, functions, shown, tsc, rfl⟩
    have receipts : receiptRows (pciScan machine'.config seat).1 machine.bootTime seat =
        receiptRows (pciScan machine'.config seat).1 machine'.bootTime seat := receiptRows_congr (utc_inj.mpr shown) tsc
    rw [bootRows, bootRows, observations, pciRows_eq_iff.mpr functions, summary_pciScan, tuple_eq_of_functions functions,
      ← summary_pciScan, receipts]

end Told

end Asolaria.Boot
