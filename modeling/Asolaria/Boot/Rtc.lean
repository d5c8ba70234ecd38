import Asolaria.Boot.Rows

namespace Asolaria.Boot
open Library

/-- What `cmos_read` gives for a register, by the number of the read. -/
abbrev CmosReads := Nat → UInt8 → UInt8

def bcdToBin (v : UInt8) : UInt8 := (v &&& (0x0F : UInt8)) + (v >>> 4) * 10

/-- The loop in front of the reads, with what is left of its guard. The result
is the number of the first read behind it. -/
def waitForUpdate (cmosRead : CmosReads) : Nat → Nat → Nat
  | 0, k => k + 1
  | left + 1, k => if cmosRead k 0x0A &&& 0x80 ≠ 0 then waitForUpdate cmosRead left (k + 1) else k + 1

/-- The registers as `read_boot_time` reads them. -/
structure RawTime where
  rawSec : UInt8
  rawMin : UInt8
  rawHour : UInt8
  rawDay : UInt8
  rawMonth : UInt8
  rawYear : UInt8
  rawCentury : UInt8
  statusB : UInt8
  deriving DecidableEq, Repr

def readRaw (cmosRead : CmosReads) (k : Nat) : RawTime where
  rawSec := cmosRead k 0x00
  rawMin := cmosRead (k + 1) 0x02
  rawHour := cmosRead (k + 2) 0x04
  rawDay := cmosRead (k + 3) 0x07
  rawMonth := cmosRead (k + 4) 0x08
  rawYear := cmosRead (k + 5) 0x09
  rawCentury := cmosRead (k + 6) 0x32
  statusB := cmosRead (k + 7) 0x0B

/-- The closure `conv`. -/
def conv (isBcd : Bool) (v : UInt8) : UInt8 := if isBcd then bcdToBin v else v

def decodeHour (isBcd is12h : Bool) (rawHour : UInt8) : UInt8 :=
  let pm := is12h && rawHour &&& 0x80 != 0
  let hour := conv isBcd (rawHour &&& 0x7F)
  if is12h then
    let hour := if hour = 12 then 0 else hour
    if pm then hour + 12 else hour
  else hour

def RawTime.decode (raw : RawTime) (tsc : UInt64) : BootTime :=
  let isBcd := raw.statusB &&& 0x04 == 0
  let is12h := raw.statusB &&& 0x02 == 0
  let century := if raw.rawCentury ≠ 0 then (conv isBcd raw.rawCentury).toUInt16 else 20
  { year := century * 100 + (conv isBcd raw.rawYear).toUInt16
    month := conv isBcd raw.rawMonth
    day := conv isBcd raw.rawDay
    hour := decodeHour isBcd is12h raw.rawHour
    min := conv isBcd raw.rawMin
    sec := conv isBcd raw.rawSec
    tsc }

/-- `read_boot_time` without its row, with the tick that `rdtsc` gives. -/
def readBootTime (cmosRead : CmosReads) (tsc : UInt64) : BootTime :=
  (readRaw cmosRead (waitForUpdate cmosRead 1000000 0)).decode tsc

section Device

/-- A time of day and a date as a clock chip counts them. -/
structure WallClock where
  century : Nat
  year : Nat
  month : Nat
  day : Nat
  hour : Nat
  min : Nat
  sec : Nat
  century_lt : century < 100
  year_lt : year < 100
  month_bounds : 1 ≤ month ∧ month ≤ 12
  day_bounds : 1 ≤ day ∧ day ≤ 31
  hour_lt : hour < 24
  min_lt : min < 60
  sec_lt : sec < 60
  deriving DecidableEq

/-- A number below a hundred in the format that status B selects. -/
def encodeField (statusB : UInt8) (n : Nat) : UInt8 :=
  if statusB &&& 0x04 = 0 then UInt8.ofNat (n / 10 * 16 + n % 10) else UInt8.ofNat n

/-- The hour register: in the 12-hour mode the hours are 1 to 12, and bit 7 is
set past noon. -/
def encodeHour (statusB : UInt8) (hour : Nat) : UInt8 :=
  if statusB &&& 0x02 = 0 then
    encodeField statusB (if hour % 12 = 0 then 12 else hour % 12) ||| (if 12 ≤ hour then 0x80 else 0)
  else encodeField statusB hour

/-- What the registers of the chip show of a time. A chip without a century
register shows zero there. -/
def WallClock.register (clock : WallClock) (statusB : UInt8) (hasCentury : Bool) (reg : UInt8) : UInt8 :=
  if reg = 0x00 then encodeField statusB clock.sec
  else if reg = 0x02 then encodeField statusB clock.min
  else if reg = 0x04 then encodeHour statusB clock.hour
  else if reg = 0x07 then encodeField statusB clock.day
  else if reg = 0x08 then encodeField statusB clock.month
  else if reg = 0x09 then encodeField statusB clock.year
  else if reg = 0x32 then (if hasCentury then encodeField statusB clock.century else 0)
  else statusB

/-- The century is told: by its register, or because it is the 21st. -/
def WallClock.CenturyTold (clock : WallClock) (hasCentury : Bool) : Prop :=
  if hasCentury then clock.century ≠ 0 else clock.century = 20

/-- The digits of a time, the most significant one first. -/
def WallClock.digits (clock : WallClock) : List Nat :=
  [clock.century, clock.year, clock.month, clock.day, clock.hour, clock.min, clock.sec]

/-- The fields of a boot's clock, the most significant one first. -/
def BootTime.fields (bt : BootTime) : List Nat :=
  [bt.year.toNat / 100, bt.year.toNat % 100, bt.month.toNat, bt.day.toNat, bt.hour.toNat, bt.min.toNat, bt.sec.toNat]

end Device

end Asolaria.Boot
