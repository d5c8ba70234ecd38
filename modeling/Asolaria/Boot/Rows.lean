import Asolaria.Boot.DevicePid
import Asolaria.Library.Cursor

namespace Asolaria.Boot
open Library

namespace Row

/-- `buf[i] = HEX[v]`. -/
def putHexDigit (v : UInt8) : Writing UInt8 Unit := do
  let digit ← (utf8 "0123456789abcdef")[v.toNat]?
  putAt digit

def putHex8 (v : UInt8) : Writing UInt8 Unit := do
  putHexDigit (v >>> 4)
  putHexDigit (v &&& 0x0F)

def putHex16 (v : UInt16) : Writing UInt8 Unit := do
  putHex8 (v >>> 8).toUInt8
  putHex8 (v &&& 0xFF).toUInt8

def putBytes (s : List UInt8) : Writing UInt8 Unit := putAll s

/-- The loop that collects the digits, the last one first. -/
def collectDigits (tmp : List UInt8) (n x : Nat) : Nat → Option (List UInt8 × Nat)
  | 0 => if x = 0 then some (tmp, n) else none
  | left + 1 =>
    if x = 0 then some (tmp, n)
    else do
      let tmp ← setChecked tmp n (lastDigit x)
      collectDigits tmp (n + 1) (x / 10) left

/-- The loop that copies the digits back, from the end of `tmp`. -/
def putBackwards (tmp : List UInt8) : Nat → Writing UInt8 Unit
  | 0 => pure ()
  | n + 1 => do
    let digit ← tmp[n]?
    putAt digit
    putBackwards tmp n

/-- `put_u32` and `put_u64`, which differ in the room of `tmp` alone. -/
def putDecimal (capacity value : Nat) : Writing UInt8 Unit :=
  if value = 0 then putAt 48
  else do
    let (tmp, n) ← collectDigits (List.replicate capacity 0) 0 value capacity
    putBackwards tmp n

def putU32 (v : UInt32) : Writing UInt8 Unit := putDecimal 10 v.toNat

def putU64 (v : UInt64) : Writing UInt8 Unit := putDecimal 20 v.toNat

def put2 (v : UInt8) : Writing UInt8 Unit := do
  putAt (48 + (v / 10) % 10)
  putAt (48 + v % 10)

def putU4 (v : UInt16) : Writing UInt8 Unit := do
  putAt (48 + ((v / 1000) % 10).toUInt8)
  putAt (48 + ((v / 100) % 10).toUInt8)
  putAt (48 + ((v / 10) % 10).toUInt8)
  putAt (48 + (v % 10).toUInt8)

def putFlag (b : Bool) : Writing UInt8 Unit := putAt (if b then 49 else 48)

/-- The dot in front of every glyph but the first. -/
def putDot (k : Nat) : Writing UInt8 Unit := if k > 0 then putAt 46 else pure ()

end Row

open Row

/-- The clock of a boot. -/
structure BootTime where
  year : UInt16
  month : UInt8
  day : UInt8
  hour : UInt8
  min : UInt8
  sec : UInt8
  tsc : UInt64
  deriving DecidableEq, Repr

/-- `write_utc`, at the start of the buffer it is given. -/
def BootTime.writeUtc (bt : BootTime) : Writing UInt8 Unit := do
  putU4 bt.year
  putAt 45
  put2 bt.month
  putAt 45
  put2 bt.day
  putAt 84
  put2 bt.hour
  putAt 58
  put2 bt.min
  putAt 58
  put2 bt.sec
  putAt 90

/-- The loop over the first six glyphs. -/
def putPrefix (coord : List UInt16) : Writing UInt8 Unit :=
  (coord.take 6).zipIdx.forM fun entry => do
    putDot entry.2
    Row.putU32 entry.1.toUInt32

/-- The row of `emit_device_pid`. -/
def putBootPid (t : HwTuple) (seat : Seat) (deviceDigest hwDigest : Sha256.Digest) (coord : List UInt16) :
    Writing UInt8 Unit := do
  putBytes (utf8 "  BOOTPID|device_pid=")
  (deviceDigest.toList.take 8).forM putHex8
  putBytes (utf8 "|device_pid_full=")
  deviceDigest.toList.forM putHex8
  putBytes (utf8 "|hw_tuple_pid_full=")
  hwDigest.toList.forM putHex8
  putBytes (utf8 "|hw_devices=")
  Row.putU32 t.count
  putBytes (utf8 "|rst_vmd=")
  putFlag t.rstVmd
  putBytes (utf8 "|ahci=")
  putFlag t.ahci
  putBytes (utf8 "|storage=")
  putFlag t.storage
  putBytes (utf8 "|seat=")
  putBytes seat.label
  putBytes (utf8 "|colony=")
  putBytes seat.label
  putBytes (utf8 "|behcs=1024|dims=60|derived_from=60d_coordinate|coord_prefix=")
  putPrefix coord
  putBytes (utf8 "|e=0|fire=0|json=0\r\n")

/-- `emit_device_pid` on its row buffer. -/
def emitDevicePidChecked (t : HwTuple) (seat : Seat) : Option (Sha256.Digest × List UInt8) := do
  let hwDigest := sha256 t.buf
  let coord := project60d t.buf
  let deviceDigest := sha256 (coordBytes coord)
  let row ← printed 448 0 (putBootPid t seat deviceDigest hwDigest coord)
  return (deviceDigest, row)

/-- The line of `pci_scan` on its buffer. -/
def pciLineChecked (bus dev func : UInt8) (vendor device : UInt16) (classCode subclass progIf : UInt8) :
    Option (List UInt8) :=
  printed 48 0 do
    putBytes (utf8 "  PCI ")
    putHex8 bus
    putAt 58
    putHex8 dev
    putAt 46
    putAt (48 + func)
    putBytes (utf8 "  ")
    putHex16 vendor
    putAt 58
    putHex16 device
    putBytes (utf8 " class=")
    putHex8 classCode
    putAt 58
    putHex8 subclass
    putAt 58
    putHex8 progIf
    putBytes (utf8 "\r\n")

def emitBoottime (bt : BootTime) : Option (List UInt8) :=
  printed 96 0 do
    putBytes (utf8 "  BOOTTIME|utc=")
    onTail bt.writeUtc
    putBytes (utf8 "|tsc=")
    putU64 bt.tsc
    putBytes (utf8 "|src=cmos_rtc+tsc|e=0|json=0\r\n")

/-- The text that `bootproj::emit` hashes, in its buffer of 72 bytes. -/
def bootprojPreimage (deviceDigest : Sha256.Digest) (bt : BootTime) : Option (List UInt8) := do
  let pre ← copyChecked (List.replicate 72 0) 0 32 deviceDigest.toList
  let (_, c) ← onTail bt.writeUtc ⟨pre, 32⟩
  let pre ← copyChecked c.buf c.i (c.i + 8) (beBytes 8 bt.tsc.toNat)
  sliceChecked pre 0 (c.i + 8)

/-- `bootproj::emit`: the boot pid and the row. -/
def bootprojEmit (deviceDigest : Sha256.Digest) (bt : BootTime) : Option (List UInt8 × List UInt8) := do
  let pre ← bootprojPreimage deviceDigest bt
  let bootPid := (sha256 pre).toList.take 8
  let row ← printed 160 0 do
    putBytes (utf8 "  BOOTPROJ|boot_pid=")
    bootPid.forM putHex8
    putBytes (utf8 "|device_pid=")
    (deviceDigest.toList.take 8).forM putHex8
    putBytes (utf8 "|utc=")
    onTail bt.writeUtc
    putBytes (utf8 "|volatile=1|stable_ref=device_pid|e=0|fire=0|json=0\r\n")
  return (bootPid, row)

/-- The row of a storage driver, with the texts that tell the two drivers
apart. -/
def driverProbe (head matched missing : List UInt8) (isMatch : Bool) (deviceDigest : Sha256.Digest)
    (bootPid : Vector UInt8 8) (bt : BootTime) (seat : Seat) : Option (List UInt8) :=
  printed 256 0 do
    putBytes head
    (deviceDigest.toList.take 8).forM putHex8
    putBytes (utf8 "|boot_pid=")
    bootPid.toList.forM putHex8
    putBytes (utf8 "|utc=")
    onTail bt.writeUtc
    putBytes (utf8 "|seat=")
    putBytes seat.label
    putBytes (utf8 "|status=")
    putBytes (if isMatch then matched else missing)
    putBytes (utf8 "|writes=0|e=0|fire=0|json=0\r\n")

/-- `driver_rst_vmd::probe`. -/
def rstVmdProbe (hw : HwSummary) : Vector UInt8 8 → BootTime → Seat → Option (List UInt8) :=
  driverProbe (utf8 "  BOOTDRIVER|driver=intel-rst-vmd|match=8086:282A|device_pid=")
    (utf8 "GATED_MATCH|vmd_walk=TODO_next_step") (utf8 "NOT_APPLICABLE|no_8086:282A_on_this_device") hw.rstVmd
    hw.deviceDigest

/-- `driver_ahci::probe`. -/
def ahciProbe (hw : HwSummary) : Vector UInt8 8 → BootTime → Seat → Option (List UInt8) :=
  driverProbe (utf8 "  BOOTDRIVER|driver=sata-ahci|match=class01:06:01|device_pid=")
    (utf8 "GATED_MATCH|ahci_bringup=TODO_next_step") (utf8 "NOT_APPLICABLE|no_sata_ahci_on_this_device") hw.ahci
    hw.deviceDigest

section Puts

theorem writes_hexDigit {v : UInt8} (small : v.toNat < 16) : Writes (putHexDigit v) [hexDigit v.toNat] := by
  have table : ∀ n < 16, (utf8 "0123456789abcdef")[n]? = some (hexDigit n) := by decide
  have found := table v.toNat small
  rw [putHexDigit, found]
  exact Writes.one _

theorem writes_hex8 (v : UInt8) : Writes (putHex8 v) (toHex [v]) := by
  have bound := v.toNat_lt
  have high := @writes_hexDigit (v >>> 4) (by rw [toNat_high]; omega)
  have low := @writes_hexDigit (v &&& 0x0F) (by rw [toNat_low]; omega)
  rw [toNat_high] at high
  rw [toNat_low] at low
  exact high.seq low

theorem writes_hex16 (v : UInt16) : Writes (putHex16 v) (toHex [(v >>> 8).toUInt8, (v &&& 0xFF).toUInt8]) :=
  (writes_hex8 _).seq (writes_hex8 _)

theorem toHex_eq_flatMap (bytes : List UInt8) : toHex bytes = bytes.flatMap fun b => toHex [b] := by
  induction bytes with
  | nil => rfl
  | cons b rest ih =>
    rw [List.flatMap_cons, ← ih]
    rfl

theorem writes_hexes (bytes : List UInt8) : Writes (bytes.forM putHex8) (toHex bytes) := by
  rw [toHex_eq_flatMap]
  exact Writes.forM fun b _ => writes_hex8 b

/-- The digits are collected in reverse order. -/
theorem collectDigits_eq {low rest : List UInt8} {x left : Nat} (small : x < 10 ^ left) (room : rest.length = left) :
    ∃ tmp, collectDigits (low ++ rest) low.length x left = some (tmp, low.length + (digitsBefore x).length) ∧
      tmp.take (low.length + (digitsBefore x).length) = low ++ (digitsBefore x).reverse ∧
      low.length + (digitsBefore x).length ≤ tmp.length := by
  induction left generalizing low rest x with
  | zero =>
    have zero : x = 0 := by simpa using small
    subst zero
    refine ⟨low ++ rest, rfl, ?_, ?_⟩
    · exact (List.take_left).trans (List.append_nil low).symm
    · rw [List.length_append]
      exact Nat.le_add_right _ _
  | succ left ih =>
    rw [collectDigits]
    by_cases zero : x = 0
    · subst zero
      refine ⟨low ++ rest, rfl, ?_, ?_⟩
      · exact (List.take_left).trans (List.append_nil low).symm
      · rw [List.length_append]
        exact Nat.le_add_right _ _
    · obtain ⟨cell, rest, rfl⟩ := List.exists_cons_of_length_eq_add_one room
      have divided : x / 10 < 10 ^ left := by
        rw [Nat.pow_succ] at small
        omega
      obtain ⟨tmp, ran, taken, inside⟩ := @ih (low ++ [lastDigit x]) rest (x / 10) divided (Nat.succ.inj room)
      have count : (low ++ [lastDigit x]).length + (digitsBefore (x / 10)).length =
          low.length + (digitsBefore x).length := by
        rw [digitsBefore_step zero, List.length_append, List.length_append, List.length_singleton, Nat.add_assoc,
          Nat.add_comm 1]
      rw [count] at ran taken inside
      refine ⟨tmp, ?_, ?_, inside⟩
      · rw [if_neg zero, setChecked_append rfl]
        rw [List.append_assoc, List.length_append] at ran
        exact ran
      · rw [taken, digitsBefore_step zero, List.reverse_append, List.append_assoc]
        rfl

theorem writes_backwards {tmp : List UInt8} {n : Nat} (inside : n ≤ tmp.length) :
    Writes (putBackwards tmp n) (tmp.take n).reverse := by
  induction n with
  | zero => exact Writes.nothing
  | succ n ih =>
    rw [putBackwards, List.getElem?_eq_getElem (show n < tmp.length by omega),
      List.take_succ_eq_append_getElem (show n < tmp.length by omega), List.reverse_append]
    exact (Writes.one _).seq (ih (by omega))

theorem writes_decimal {capacity value : Nat} (small : value < 10 ^ capacity) :
    Writes (putDecimal capacity value) (decimalBytes value) := by
  rw [putDecimal]
  by_cases zero : value = 0
  · rw [if_pos zero, zero]
    exact Writes.one 48
  · have digits : digitsBefore value = decimalBytes value := if_neg zero
    obtain ⟨tmp, ran, taken, inside⟩ :=
      @collectDigits_eq [] (List.replicate capacity 0) value capacity small List.length_replicate
    rw [digits] at ran taken inside
    have backwards := writes_backwards inside
    rw [taken, List.nil_append, List.reverse_reverse] at backwards
    rw [List.nil_append] at ran
    rw [if_neg zero, ← List.length_nil, ran]
    exact backwards

theorem writes_bytes (s : List UInt8) : Writes (putBytes s) s := Writes.all s

theorem writes_u32 (v : UInt32) : Writes (Row.putU32 v) (Boot.putU32 v) :=
  writes_decimal (Nat.lt_trans v.toNat_lt (by decide))

theorem writes_u64 (v : UInt64) : Writes (putU64 v) (decimalBytes v.toNat) :=
  writes_decimal (Nat.lt_trans v.toNat_lt (by decide))

theorem writes_flag (b : Bool) : Writes (putFlag b) (flag b) := by
  cases b with
  | false => exact Writes.one 48
  | true => exact Writes.one 49

end Puts

def twoDigits (v : UInt8) : List UInt8 := [48 + (v / 10) % 10, 48 + v % 10]

def fourDigits (v : UInt16) : List UInt8 :=
  [48 + ((v / 1000) % 10).toUInt8, 48 + ((v / 100) % 10).toUInt8, 48 + ((v / 10) % 10).toUInt8, 48 + (v % 10).toUInt8]

/-- `YYYY-MM-DDTHH:MM:SSZ`. -/
def BootTime.utc (bt : BootTime) : List UInt8 :=
  fourDigits bt.year ++ 45 :: (twoDigits bt.month ++ 45 :: (twoDigits bt.day ++ 84 :: (twoDigits bt.hour ++
    58 :: (twoDigits bt.min ++ 58 :: (twoDigits bt.sec ++ [90])))))

@[simp] theorem length_utc (bt : BootTime) : bt.utc.length = 20 := rfl

theorem writes_two (v : UInt8) : Writes (put2 v) (twoDigits v) := (Writes.one _).seq (Writes.one _)

theorem writes_four (v : UInt16) : Writes (putU4 v) (fourDigits v) :=
  (Writes.one _).seq ((Writes.one _).seq ((Writes.one _).seq (Writes.one _)))

theorem writes_utc (bt : BootTime) : Writes bt.writeUtc bt.utc := by
  have dash := Writes.one (45 : UInt8)
  have colon := Writes.one (58 : UInt8)
  have time := (writes_two bt.hour).seq (colon.seq ((writes_two bt.min).seq (colon.seq ((writes_two bt.sec).seq
    (Writes.one 90)))))
  exact (writes_four bt.year).seq (dash.seq ((writes_two bt.month).seq (dash.seq ((writes_two bt.day).seq
    ((Writes.one 84).seq time)))))

theorem intercalate_eq_flatMap (sep first : List UInt8) (rest : List (List UInt8)) :
    sep.intercalate (first :: rest) = first ++ rest.flatMap fun text => sep ++ text := by
  induction rest generalizing first with
  | nil => rw [List.intercalate_singleton, List.flatMap_nil, List.append_nil]
  | cons next rest ih => rw [List.intercalate_cons_cons, ih, List.flatMap_cons, List.append_assoc, List.append_assoc]

/-- The dots stand between the glyphs. -/
theorem writes_glyphs (coord : List UInt16) :
    Writes (putPrefix coord) ((utf8 ".").intercalate ((coord.take 6).map fun g => Boot.putU32 g.toUInt32)) := by
  have turns : Writes (putPrefix coord) ((coord.take 6).zipIdx.flatMap fun entry =>
      (if entry.2 > 0 then [46] else []) ++ Boot.putU32 entry.1.toUInt32) :=
    Writes.forM fun entry _ => (Writes.ite (Writes.one 46) Writes.nothing).seq (writes_u32 entry.1.toUInt32)
  have dotted (glyphs : List UInt16) (k : Nat) : (glyphs.zipIdx (k + 1)).flatMap (fun entry =>
      (if entry.2 > 0 then [46] else []) ++ Boot.putU32 entry.1.toUInt32) =
      (glyphs.map fun g => Boot.putU32 g.toUInt32).flatMap fun text => utf8 "." ++ text := by
    induction glyphs generalizing k with
    | nil => rfl
    | cons g glyphs ih =>
      rw [List.zipIdx_cons, List.flatMap_cons, ih, List.map_cons, List.flatMap_cons, if_pos (Nat.succ_pos k)]
      rfl
  cases glyphs : coord.take 6 with
  | nil =>
    rw [glyphs] at turns
    exact turns
  | cons g rest =>
    rw [glyphs, List.zipIdx_cons, List.flatMap_cons, dotted] at turns
    rw [List.map_cons, intercalate_eq_flatMap]
    exact turns

/-- The row is the one of the enumeration. -/
theorem writes_bootPid (t : HwTuple) (seat : Seat) (deviceDigest hwDigest : Sha256.Digest) (coord : List UInt16) :
    Writes (putBootPid t seat deviceDigest hwDigest coord) (bootPidRow t seat deviceDigest hwDigest coord) := by
  have coords := (writes_bytes (utf8 "|behcs=1024|dims=60|derived_from=60d_coordinate|coord_prefix=")).seq
    ((writes_glyphs coord).seq (writes_bytes (utf8 "|e=0|fire=0|json=0\r\n")))
  have seats := (writes_bytes (utf8 "|seat=")).seq ((writes_bytes seat.label).seq
    ((writes_bytes (utf8 "|colony=")).seq ((writes_bytes seat.label).seq coords)))
  have flags := (writes_bytes (utf8 "|rst_vmd=")).seq ((writes_flag t.rstVmd).seq
    ((writes_bytes (utf8 "|ahci=")).seq ((writes_flag t.ahci).seq
    ((writes_bytes (utf8 "|storage=")).seq ((writes_flag t.storage).seq seats)))))
  have digests := (writes_bytes (utf8 "|device_pid_full=")).seq ((writes_hexes deviceDigest.toList).seq
    ((writes_bytes (utf8 "|hw_tuple_pid_full=")).seq ((writes_hexes hwDigest.toList).seq
    ((writes_bytes (utf8 "|hw_devices=")).seq ((writes_u32 t.count).seq flags)))))
  have row := (writes_bytes (utf8 "  BOOTPID|device_pid=")).seq
    ((writes_hexes (deviceDigest.toList.take 8)).seq digests)
  unfold bootPidRow
  simp only [List.append_assoc]
  exact row

/-- The texts of the other rows. -/
def bootTimeRow (bt : BootTime) : List UInt8 :=
  utf8 "  BOOTTIME|utc=" ++ (bt.utc ++ (utf8 "|tsc=" ++ (decimalBytes bt.tsc.toNat ++
    utf8 "|src=cmos_rtc+tsc|e=0|json=0\r\n")))

def bootprojText (deviceDigest : Sha256.Digest) (bt : BootTime) : List UInt8 :=
  deviceDigest.toList ++ (bt.utc ++ beBytes 8 bt.tsc.toNat)

def bootProjRow (bootPid : List UInt8) (deviceDigest : Sha256.Digest) (bt : BootTime) : List UInt8 :=
  utf8 "  BOOTPROJ|boot_pid=" ++ (toHex bootPid ++ (utf8 "|device_pid=" ++ (toHex (deviceDigest.toList.take 8) ++
    (utf8 "|utc=" ++ (bt.utc ++ utf8 "|volatile=1|stable_ref=device_pid|e=0|fire=0|json=0\r\n")))))

def driverRow (head status : List UInt8) (deviceDigest : Sha256.Digest) (bootPid : Vector UInt8 8) (bt : BootTime)
    (seat : Seat) : List UInt8 :=
  head ++ (toHex (deviceDigest.toList.take 8) ++ (utf8 "|boot_pid=" ++ (toHex bootPid.toList ++ (utf8 "|utc=" ++
    (bt.utc ++ (utf8 "|seat=" ++ (seat.label ++ (utf8 "|status=" ++ (status ++
      utf8 "|writes=0|e=0|fire=0|json=0\r\n")))))))))

section Printed

theorem emitDevicePidChecked_eq {t : HwTuple} (capped : t.count.toNat ≤ 64) (seat : Seat) :
    emitDevicePidChecked t seat = some (emitDevicePid t seat) := by
  have fits := length_bootPidRow_le capped (project60d_small t.buf) seat (sha256 (coordBytes (project60d t.buf)))
    (sha256 t.buf)
  rw [emitDevicePidChecked]
  simp only [(writes_bootPid t seat _ _ _).printed_eq 0 fits]
  rfl

theorem pciLineChecked_eq (bus dev func : UInt8) (vendor device : UInt16) (classCode subclass progIf : UInt8) :
    pciLineChecked bus dev func vendor device classCode subclass progIf =
      some (pciLine bus dev func vendor device classCode subclass progIf) := by
  have colon : Writes (putAt 58) (utf8 ":") := Writes.one 58
  have dot : Writes (putAt 46) (utf8 ".") := Writes.one 46
  have classes := (writes_bytes (utf8 " class=")).seq ((writes_hex8 classCode).seq (colon.seq
    ((writes_hex8 subclass).seq (colon.seq ((writes_hex8 progIf).seq (writes_bytes (utf8 "\r\n")))))))
  have line := (writes_bytes (utf8 "  PCI ")).seq ((writes_hex8 bus).seq (colon.seq ((writes_hex8 dev).seq (dot.seq
    ((Writes.one (48 + func)).seq ((writes_bytes (utf8 "  ")).seq ((writes_hex16 vendor).seq (colon.seq
      ((writes_hex16 device).seq classes)))))))))
  have fits : (pciLine bus dev func vendor device classCode subclass progIf).length ≤ 48 := by
    rw [length_pciLine]
    decide
  refine Writes.printed_eq ?_ 0 fits
  unfold pciLine
  simp only [List.append_assoc]
  exact line

theorem emitBoottime_eq (bt : BootTime) : emitBoottime bt = some (bootTimeRow bt) := by
  have row := (writes_bytes (utf8 "  BOOTTIME|utc=")).seq ((writes_utc bt).onTail.seq
    ((writes_bytes (utf8 "|tsc=")).seq ((writes_u64 bt.tsc).seq
    (writes_bytes (utf8 "|src=cmos_rtc+tsc|e=0|json=0\r\n")))))
  have texts : (utf8 "  BOOTTIME|utc=").length = 15 ∧ (utf8 "|tsc=").length = 5 ∧
      (utf8 "|src=cmos_rtc+tsc|e=0|json=0\r\n").length = 30 := by decide +kernel
  have digits : (decimalBytes bt.tsc.toNat).length ≤ 20 :=
    length_decimalBytes_le (by decide) (Nat.lt_trans bt.tsc.toNat_lt (by decide))
  refine Writes.printed_eq row 0 ?_
  simp only [List.length_append, texts, length_utc]
  clear texts
  omega

theorem bootprojPreimage_eq (deviceDigest : Sha256.Digest) (bt : BootTime) :
    bootprojPreimage deviceDigest bt = some (bootprojText deviceDigest bt) := by
  have digest : deviceDigest.toList.length = 32 := Vector.length_toList
  have tsc : (beBytes 8 bt.tsc.toNat).length = 8 := length_beBytes 8 _
  have front : (deviceDigest.toList ++ bt.utc).length = 52 := by rw [List.length_append, digest, length_utc]
  have copied : copyChecked (List.replicate 72 0) 0 32 deviceDigest.toList =
      some (deviceDigest.toList ++ (List.replicate 20 0 ++ (List.replicate 8 0 ++ List.replicate 12 0))) :=
    copyChecked_append (show 0 = ([] : List UInt8).length from rfl)
      (show (List.replicate 32 (0 : UInt8)).length = deviceDigest.toList.length from digest.symm) (by rw [digest])
  have timed := (writes_utc bt).onTail deviceDigest.toList (List.replicate 20 0)
    (List.replicate 8 0 ++ List.replicate 12 0) rfl
  have ticked : copyChecked ((deviceDigest.toList ++ bt.utc) ++ (List.replicate 8 0 ++ List.replicate 12 0)) 52 60
      (beBytes 8 bt.tsc.toNat) =
      some ((deviceDigest.toList ++ bt.utc) ++ (beBytes 8 bt.tsc.toNat ++ List.replicate 12 0)) :=
    copyChecked_append front.symm (by rw [List.length_replicate, tsc]) (by rw [tsc])
  have whole : (bootprojText deviceDigest bt).length = 60 := by
    rw [bootprojText, List.length_append, List.length_append, digest, tsc, length_utc]
  rw [digest, length_utc, ← List.append_assoc deviceDigest.toList bt.utc] at timed
  rw [bootprojPreimage, copied]
  simp only [Option.bind_eq_bind, Option.bind_some, timed, ticked]
  rw [← List.append_assoc, List.append_assoc deviceDigest.toList bt.utc, ← bootprojText,
    sliceChecked_zero (by rw [List.length_append, whole]; omega), List.take_left' whole]

theorem bootprojEmit_eq (deviceDigest : Sha256.Digest) (bt : BootTime) :
    bootprojEmit deviceDigest bt = some ((sha256 (bootprojText deviceDigest bt)).toList.take 8,
      bootProjRow ((sha256 (bootprojText deviceDigest bt)).toList.take 8) deviceDigest bt) := by
  generalize pid : (sha256 (bootprojText deviceDigest bt)).toList.take 8 = bootPid
  have length : bootPid.length = 8 := by
    rw [← pid, List.length_take, Vector.length_toList]
    rfl
  have row := (writes_bytes (utf8 "  BOOTPROJ|boot_pid=")).seq ((writes_hexes bootPid).seq
    ((writes_bytes (utf8 "|device_pid=")).seq ((writes_hexes (deviceDigest.toList.take 8)).seq
    ((writes_bytes (utf8 "|utc=")).seq ((writes_utc bt).onTail.seq
    (writes_bytes (utf8 "|volatile=1|stable_ref=device_pid|e=0|fire=0|json=0\r\n")))))))
  have texts : (utf8 "  BOOTPROJ|boot_pid=").length = 20 ∧ (utf8 "|device_pid=").length = 12 ∧
      (utf8 "|utc=").length = 5 ∧ (utf8 "|volatile=1|stable_ref=device_pid|e=0|fire=0|json=0\r\n").length = 53 := by decide +kernel
  have fits : (bootProjRow bootPid deviceDigest bt).length ≤ 160 := by
    unfold bootProjRow
    simp only [List.length_append, texts, length_utc, length_toHex, length, List.length_take, Vector.length_toList]
    clear texts
    omega
  rw [bootprojEmit, bootprojPreimage_eq]
  simp only [Option.bind_eq_bind, Option.bind_some, pid]
  have printed := row.printed_eq 0 fits
  rw [printed]
  rfl

theorem driverProbe_eq {head matched missing : List UInt8} (isMatch : Bool)
    (room : head.length + max matched.length missing.length ≤ 114) (deviceDigest : Sha256.Digest)
    (bootPid : Vector UInt8 8) (bt : BootTime) (seat : Seat) :
    driverProbe head matched missing isMatch deviceDigest bootPid bt seat =
      some (driverRow head (if isMatch then matched else missing) deviceDigest bootPid bt seat) := by
  have label := seat.short
  have status : (if isMatch then matched else missing).length ≤ max matched.length missing.length := by
    split <;> omega
  have behind := (writes_bytes (utf8 "|seat=")).seq ((writes_bytes seat.label).seq
    ((writes_bytes (utf8 "|status=")).seq ((writes_bytes (if isMatch then matched else missing)).seq
    (writes_bytes (utf8 "|writes=0|e=0|fire=0|json=0\r\n")))))
  have row := (writes_bytes head).seq ((writes_hexes (deviceDigest.toList.take 8)).seq
    ((writes_bytes (utf8 "|boot_pid=")).seq ((writes_hexes bootPid.toList).seq
    ((writes_bytes (utf8 "|utc=")).seq ((writes_utc bt).onTail.seq behind)))))
  have texts : (utf8 "|boot_pid=").length = 10 ∧ (utf8 "|utc=").length = 5 ∧ (utf8 "|seat=").length = 6 ∧
      (utf8 "|status=").length = 8 ∧ (utf8 "|writes=0|e=0|fire=0|json=0\r\n").length = 29 := by decide +kernel
  refine Writes.printed_eq row 0 ?_
  simp only [List.length_append, texts, length_utc, length_toHex, List.length_take, Vector.length_toList]
  clear texts
  omega

theorem rstVmdProbe_eq (hw : HwSummary) (bootPid : Vector UInt8 8) (bt : BootTime) (seat : Seat) :
    ∃ row, rstVmdProbe hw bootPid bt seat = some row :=
  ⟨_, driverProbe_eq hw.rstVmd (by decide +kernel) hw.deviceDigest bootPid bt seat⟩

theorem ahciProbe_eq (hw : HwSummary) (bootPid : Vector UInt8 8) (bt : BootTime) (seat : Seat) :
    ∃ row, ahciProbe hw bootPid bt seat = some row :=
  ⟨_, driverProbe_eq hw.ahci (by decide +kernel) hw.deviceDigest bootPid bt seat⟩

end Printed

/-- All rows of the boot are written inside their buffers, and the clock takes
twenty bytes of any buffer that has them. -/
theorem rows_in_range {t : HwTuple} (capped : t.count ≤ 64) (seat : Seat) (bus dev func : UInt8)
    (vendor device : UInt16) (classCode subclass progIf : UInt8) (hw : HwSummary) (deviceDigest : Sha256.Digest)
    (bootPid : Vector UInt8 8) (bt : BootTime) :
    emitDevicePidChecked t seat = some (emitDevicePid t seat) ∧
    pciLineChecked bus dev func vendor device classCode subclass progIf =
      some (pciLine bus dev func vendor device classCode subclass progIf) ∧
    emitBoottime bt = some (bootTimeRow bt) ∧ (∃ result, bootprojEmit deviceDigest bt = some result) ∧
    (∃ row, rstVmdProbe hw bootPid bt seat = some row) ∧ (∃ row, ahciProbe hw bootPid bt seat = some row) ∧
    ∀ buf : List UInt8, 20 ≤ buf.length →
      ∃ text, text.length = 20 ∧ bt.writeUtc ⟨buf, 0⟩ = some ((), ⟨text ++ buf.drop 20, 20⟩) := by
  have count : t.count.toNat ≤ 64 := UInt32.le_iff_toNat_le.mp capped
  refine ⟨emitDevicePidChecked_eq count seat, pciLineChecked_eq .., emitBoottime_eq bt,
    ⟨_, bootprojEmit_eq deviceDigest bt⟩, rstVmdProbe_eq hw bootPid bt seat, ahciProbe_eq hw bootPid bt seat, ?_⟩
  intro buf room
  exact ⟨bt.utc, rfl, (writes_utc bt).run_eq room⟩

/-- The longest label that a seat can have. -/
def longSeat : Seat := ⟨List.replicate 32 97, by decide, by decide, by decide +kernel⟩

/-- The capped enumeration on that seat, at the last tick of the counter. -/
theorem rows_in_range_full :
    (∃ result, emitDevicePidChecked ⟨[], 64, true, true, true⟩ longSeat = some result) ∧
      emitBoottime ⟨2026, 7, 9, 23, 59, 58, 0xffffffffffffffff⟩ =
        some (utf8 "  BOOTTIME|utc=2026-07-09T23:59:58Z|tsc=18446744073709551615|src=cmos_rtc+tsc|e=0|json=0\r\n") := by
  have capped : (64 : UInt32) ≤ 64 := UInt32.le_refl 64
  have rows := @rows_in_range ⟨[], 64, true, true, true⟩ capped longSeat 0 0 0 0 0 0 0 0
    ⟨Vector.replicate 32 0, true, true⟩ (Vector.replicate 32 0) (Vector.replicate 8 0)
    ⟨2026, 7, 9, 23, 59, 58, 0xffffffffffffffff⟩
  obtain ⟨device, -, time, -⟩ := rows
  refine ⟨⟨_, device⟩, time.trans (congrArg some ?_)⟩
  decide +kernel

end Asolaria.Boot
