import Asolaria.Boot.Rtc
import Asolaria.Library.TornRead

namespace Asolaria.Boot
open Library

section Decoding
variable {statusB : UInt8}

theorem conv_encodeField {n : Nat} (small : n < 100) :
    conv (statusB &&& 0x04 == 0) (encodeField statusB n) = UInt8.ofNat n := by
  have packed : ∀ n < 100, bcdToBin (UInt8.ofNat (n / 10 * 16 + n % 10)) = UInt8.ofNat n := by decide
  by_cases bcd : statusB &&& 0x04 = 0
  · simp only [encodeField, conv, bcd, if_true, beq_self_eq_true, packed n small]
  · simp only [encodeField, conv, bcd, if_false, beq_iff_eq]

/-- The hours 1 to 12 with their flag give the hour back, and so do the 24. -/
theorem decodeHour_encodeHour {hour : Nat} (small : hour < 24) :
    decodeHour (statusB &&& 0x04 == 0) (statusB &&& 0x02 == 0) (encodeHour statusB hour) = UInt8.ofNat hour := by
  by_cases bcd : statusB &&& 0x04 = 0
  · by_cases twelve : statusB &&& 0x02 = 0
    · simp only [encodeHour, encodeField, bcd, twelve, if_true, beq_self_eq_true]
      revert hour
      decide
    · simp only [encodeHour, encodeField, bcd, if_neg twelve, if_true, beq_self_eq_true, beq_eq_false_iff_ne.mpr twelve]
      revert hour
      decide
  · by_cases twelve : statusB &&& 0x02 = 0
    · simp only [encodeHour, encodeField, if_neg bcd, twelve, if_true, beq_self_eq_true, beq_eq_false_iff_ne.mpr bcd]
      revert hour
      decide
    · simp only [encodeHour, encodeField, if_neg bcd, if_neg twelve, beq_eq_false_iff_ne.mpr bcd,
        beq_eq_false_iff_ne.mpr twelve]
      revert hour
      decide

theorem encodeField_zero : encodeField statusB 0 = 0 := by
  unfold encodeField
  split
  · rfl
  · rfl

theorem encodeField_ne_zero {n : Nat} (some : n ≠ 0) (small : n < 100) : encodeField statusB n ≠ 0 := by
  have packed : ∀ n < 100, n ≠ 0 → UInt8.ofNat (n / 10 * 16 + n % 10) ≠ 0 := by decide
  have plain : ∀ n < 100, n ≠ 0 → UInt8.ofNat n ≠ 0 := by decide
  unfold encodeField
  split
  · exact packed n small some
  · exact plain n small some

/-- The century that the code makes of a clock: the one of its register, or the
21st where there is none. -/
def WallClock.centuryRead (clock : WallClock) (hasCentury : Bool) : Nat :=
  if hasCentury ∧ clock.century ≠ 0 then clock.century else 20

def WallClock.digitsRead (clock : WallClock) (hasCentury : Bool) : List Nat :=
  [clock.centuryRead hasCentury, clock.year, clock.month, clock.day, clock.hour, clock.min, clock.sec]

theorem WallClock.digitsRead_of_told {clock : WallClock} {hasCentury : Bool} (told : clock.CenturyTold hasCentury) :
    clock.digitsRead hasCentury = clock.digits := by
  have century : clock.centuryRead hasCentury = clock.century := by
    cases hasCentury with
    | true => exact if_pos ⟨rfl, told⟩
    | false => exact (if_neg fun there => absurd there.1 (by decide)).trans (Eq.symm told)
  rw [digitsRead, century, digits]

theorem WallClock.centuryRead_lt (clock : WallClock) (hasCentury : Bool) : clock.centuryRead hasCentury < 100 := by
  unfold centuryRead
  split
  · exact clock.century_lt
  · decide

theorem conv_centuryRegister (clock : WallClock) (hasCentury : Bool) :
    (if clock.register statusB hasCentury 0x32 ≠ 0 then
        (conv (statusB &&& 0x04 == 0) (clock.register statusB hasCentury 0x32)).toUInt16 else 20) =
      UInt16.ofNat (clock.centuryRead hasCentury) := by
  have shown : clock.register statusB hasCentury 0x32 = if hasCentury then encodeField statusB clock.century else 0 := rfl
  have small := clock.century_lt
  rw [shown, WallClock.centuryRead]
  by_cases there : hasCentury ∧ clock.century ≠ 0
  · rw [if_pos there, if_pos there.1, if_pos (encodeField_ne_zero there.2 small), conv_encodeField small]
    apply UInt16.toNat_inj.mp
    rw [UInt8.toNat_toUInt16, UInt8.toNat_ofNat', UInt16.toNat_ofNat']
    omega
  · have blank : (if hasCentury then encodeField statusB clock.century else 0) = 0 := by
      split
      · next has =>
        have none : clock.century = 0 := by
          by_contra some
          exact there ⟨has, some⟩
        rw [none, encodeField_zero]
      · rfl
    rw [if_neg there, if_neg (not_not.mpr blank)]
    rfl

end Decoding

/-- A chip that shows a time at each read, whatever its status A says. -/
def Shows (cmosRead : CmosReads) (statusB : UInt8) (hasCentury : Bool) (clock : Nat → WallClock) : Prop :=
  ∀ k reg, reg ≠ 0x0A → cmosRead k reg = (clock k).register statusB hasCentury reg

section Reading
variable {cmosRead : CmosReads} {statusB : UInt8} {hasCentury : Bool} {clock : Nat → WallClock}

theorem toNat_ofNat_small {n : Nat} (small : n < 100) : (UInt8.ofNat n).toNat = n := by
  rw [UInt8.toNat_ofNat']
  omega

/-- No two fields are read at the same time. -/
theorem fields_decode (shows : Shows cmosRead statusB hasCentury clock) (tsc : UInt64) (k : Nat) :
    ((readRaw cmosRead k).decode tsc).fields =
      tornRead 7 fun place => (clock (k + (6 - place))).digitsRead hasCentury := by
  have yearBound := (clock (k + 5)).year_lt
  have centuryBound := (clock (k + 6)).centuryRead_lt hasCentury
  have monthBound := (clock (k + 4)).month_bounds
  have dayBound := (clock (k + 3)).day_bounds
  have hourBound := (clock (k + 2)).hour_lt
  have minBound := (clock (k + 1)).min_lt
  have secBound := (clock k).sec_lt
  have status : (readRaw cmosRead k).statusB = statusB := shows (k + 7) 0x0B (by decide)
  have sec : (readRaw cmosRead k).rawSec = encodeField statusB (clock k).sec := shows k 0x00 (by decide)
  have min : (readRaw cmosRead k).rawMin = encodeField statusB (clock (k + 1)).min := shows (k + 1) 0x02 (by decide)
  have hour : (readRaw cmosRead k).rawHour = encodeHour statusB (clock (k + 2)).hour := shows (k + 2) 0x04 (by decide)
  have day : (readRaw cmosRead k).rawDay = encodeField statusB (clock (k + 3)).day := shows (k + 3) 0x07 (by decide)
  have month : (readRaw cmosRead k).rawMonth = encodeField statusB (clock (k + 4)).month := shows (k + 4) 0x08 (by decide)
  have year : (readRaw cmosRead k).rawYear = encodeField statusB (clock (k + 5)).year := shows (k + 5) 0x09 (by decide)
  have century : (readRaw cmosRead k).rawCentury = (clock (k + 6)).register statusB hasCentury 0x32 :=
    shows (k + 6) 0x32 (by decide)
  have whole : (UInt16.ofNat ((clock (k + 6)).centuryRead hasCentury) * 100 +
      (UInt8.ofNat (clock (k + 5)).year).toUInt16).toNat =
      (clock (k + 6)).centuryRead hasCentury * 100 + (clock (k + 5)).year := by
    rw [UInt16.toNat_add, UInt16.toNat_mul, UInt16.toNat_ofNat', UInt8.toNat_toUInt16, toNat_ofNat_small yearBound]
    change ((clock (k + 6)).centuryRead hasCentury % 2 ^ 16 * 100 % 2 ^ 16 + _) % 2 ^ 16 = _
    omega
  simp (disch := omega) only [RawTime.decode, BootTime.fields, status, sec, min, hour, day, month, year, century,
    conv_centuryRegister, decodeHour_encodeHour, conv_encodeField, whole, toNat_ofNat_small]
  show [_, _, _, _, _, _, _] = [(clock (k + 6)).centuryRead hasCentury, (clock (k + 5)).year, (clock (k + 4)).month,
    (clock (k + 3)).day, (clock (k + 2)).hour, (clock (k + 1)).min, (clock k).sec]
  congr 1
  · omega
  · congr 1
    omega

end Reading
section Clock
variable {cmosRead : CmosReads} {statusB : UInt8} {hasCentury : Bool}

theorem waitForUpdate_idle (idle : cmosRead 0 0x0A &&& 0x80 = 0) : waitForUpdate cmosRead 1000000 0 = 1 := by
  rw [show (1000000 : Nat) = 999999 + 1 from rfl, waitForUpdate, if_neg (not_not.mpr idle)]

/-- A chip in any of its four formats that shows one time while it is read
gives that time, and the tick is the one of the counter. -/
theorem readBootTime_steady {time : WallClock} (shows : Shows cmosRead statusB hasCentury fun _ => time)
    (told : time.CenturyTold hasCentury) (tsc : UInt64) :
    (readBootTime cmosRead tsc).fields = time.digits ∧ (readBootTime cmosRead tsc).tsc = tsc := by
  refine ⟨?_, rfl⟩
  have still : tornRead time.digits.length (fun _ => time.digits) = time.digits := tornRead_steady fun _ _ => rfl
  rw [readBootTime, fields_decode shows, WallClock.digitsRead_of_told told]
  exact still

/-- Five past one in the afternoon, in BCD with twelve hours and without a
century register. -/
def afternoon : WallClock :=
  ⟨20, 26, 7, 9, 13, 5, 42, by decide, by decide, by decide, by decide, by decide, by decide, by decide⟩

theorem readBootTime_steady_afternoon :
    (readBootTime (fun _ reg => afternoon.register 0x00 false reg) 7).fields = [20, 26, 7, 9, 13, 5, 42] ∧
      (readBootTime (fun _ reg => afternoon.register 0x00 false reg) 7).tsc = 7 := by
  have shows : Shows (fun _ reg => afternoon.register 0x00 false reg) 0x00 false fun _ => afternoon := fun _ _ _ => rfl
  exact readBootTime_steady shows (show (20 : Nat) = 20 from rfl) 7

/-- A clock that moves on while its registers are read is never read as a time
before the first of the reads, and as that time if it has not moved on. -/
theorem readBootTime_not_before {clock : Nat → WallClock} (shows : Shows cmosRead statusB hasCentury clock)
    (told : ∀ k, (clock k).CenturyTold hasCentury) (growing : ∀ k, (clock k).digits ≤ (clock (k + 1)).digits)
    (tsc : UInt64) :
    (clock (waitForUpdate cmosRead 1000000 0)).digits ≤ (readBootTime cmosRead tsc).fields ∧
      ((clock (waitForUpdate cmosRead 1000000 0 + 6)).digits = (clock (waitForUpdate cmosRead 1000000 0)).digits →
        (readBootTime cmosRead tsc).fields = (clock (waitForUpdate cmosRead 1000000 0)).digits) := by
  let first := waitForUpdate cmosRead 1000000 0
  let shown := fun place => (clock (first + (6 - place))).digits
  have read : (readBootTime cmosRead tsc).fields = tornRead 7 shown := by
    rw [readBootTime, fields_decode shows]
    simp only [WallClock.digitsRead_of_told (told _)]
    rfl
  have older : ∀ place < 7, shown (place + 1) ≤ shown place := by
    intro place bound
    rcases Nat.lt_or_ge place 6 with inside | last
    · show (clock (first + (6 - (place + 1)))).digits ≤ (clock (first + (6 - place))).digits
      rw [show 6 - place = 6 - (place + 1) + 1 by omega]
      exact growing _
    · obtain rfl : place = 6 := by omega
      exact le_refl (shown 6)
  have lengths : ∀ place ≤ 7, (shown place).length = 7 := fun _ _ => rfl
  rw [read]
  refine ⟨le_tornRead lengths older, fun same => ?_⟩
  change tornRead (clock first).digits.length shown = (clock first).digits
  refine tornRead_steady fun place inside => ?_
  have bound : place < 7 := inside
  have above : shown 7 ≤ shown place := le_of_steps older (show place ≤ 7 by omega) (Nat.le_refl 7)
  have below : shown place ≤ shown 0 := le_of_steps older (Nat.zero_le place) (Nat.le_of_lt bound)
  exact le_antisymm (below.trans_eq same) above

/-- A chip whose last second of a year ends between the first two reads. -/
def turningClock (k : Nat) : WallClock :=
  if k ≤ 1 then ⟨20, 25, 12, 31, 23, 59, 59, by decide, by decide, by decide, by decide, by decide, by decide, by decide⟩
  else ⟨20, 26, 1, 1, 0, 0, 0, by decide, by decide, by decide, by decide, by decide, by decide, by decide⟩

def turningChip : CmosReads := fun k reg => (turningClock k).register 0x00 true reg

theorem turningClock_told (k : Nat) : (turningClock k).CenturyTold true := by
  unfold turningClock
  split
  · exact (by decide : (20 : Nat) ≠ 0)
  · exact (by decide : (20 : Nat) ≠ 0)

theorem readBootTime_not_before_turn :
    (turningClock 1).digits ≤ (readBootTime turningChip 7).fields ∧
      (readBootTime turningChip 7).fields = [20, 26, 1, 1, 0, 0, 59] := by
  have growing : ∀ k, (turningClock k).digits ≤ (turningClock (k + 1)).digits := by
    intro k
    rcases Nat.lt_trichotomy k 1 with early | turn | late
    · obtain rfl : k = 0 := by omega
      decide
    · subst turn
      decide
    · rw [turningClock, turningClock, if_neg (by omega), if_neg (by omega)]
  have shows : Shows turningChip 0x00 true turningClock := fun _ _ _ => rfl
  have read := readBootTime_not_before shows turningClock_told growing 7
  rw [waitForUpdate_idle rfl] at read
  refine ⟨read.1, ?_⟩
  rw [readBootTime, waitForUpdate_idle rfl]
  decide

end Clock

end Asolaria.Boot
