import Asolaria.Boot.RtcReading

namespace Asolaria.Boot
open Library

/-- The numbers that the text of a time shows. -/
def BootTime.shown (bt : BootTime) : List Nat :=
  [bt.year.toNat / 100 % 100, bt.year.toNat % 100, bt.month.toNat % 100, bt.day.toNat % 100, bt.hour.toNat % 100,
    bt.min.toNat % 100, bt.sec.toNat % 100]

/-- Every field has the digits that it is printed with. -/
def BootTime.InRange (bt : BootTime) : Prop := ∀ field ∈ bt.fields, field < 100

theorem BootTime.shown_eq_fields {bt : BootTime} (inRange : bt.InRange) : bt.shown = bt.fields := by
  unfold InRange fields at inRange
  simp only [List.forall_mem_cons] at inRange
  obtain ⟨century, year, month, day, hour, min, sec, -⟩ := inRange
  simp only [shown, fields, Nat.mod_eq_of_lt, century, month, day, hour, min, sec]

section Texts
variable {a b : BootTime} {left right : List UInt8}

theorem toNat_digit {n : Nat} (small : n < 10) : (48 + UInt8.ofNat n).toNat = 48 + n := by
  rw [UInt8.toNat_add, UInt8.toNat_ofNat']
  change (48 + n % 256) % 256 = _
  omega

theorem digit_inj {m n : Nat} (left : m < 10) (right : n < 10) : 48 + UInt8.ofNat m = 48 + UInt8.ofNat n ↔ m = n := by
  rw [← UInt8.toNat_inj, toNat_digit left, toNat_digit right]
  omega

/-- The digits of the numbers that are printed. -/
theorem twoDigits_eq (v : UInt8) :
    twoDigits v = [48 + UInt8.ofNat (v.toNat / 10 % 10), 48 + UInt8.ofNat (v.toNat % 10)] := by
  have high : v / 10 % 10 = UInt8.ofNat (v.toNat / 10 % 10) := by
    apply UInt8.toNat_inj.mp
    rw [UInt8.toNat_mod, UInt8.toNat_div, UInt8.toNat_ofNat']
    change v.toNat / 10 % 10 = v.toNat / 10 % 10 % 256
    omega
  have low : v % 10 = UInt8.ofNat (v.toNat % 10) := by
    apply UInt8.toNat_inj.mp
    rw [UInt8.toNat_mod, UInt8.toNat_ofNat']
    change v.toNat % 10 = v.toNat % 10 % 256
    omega
  rw [twoDigits, high, low]

theorem fourDigits_eq (v : UInt16) : fourDigits v = [48 + UInt8.ofNat (v.toNat / 1000 % 10),
    48 + UInt8.ofNat (v.toNat / 100 % 10), 48 + UInt8.ofNat (v.toNat / 10 % 10), 48 + UInt8.ofNat (v.toNat % 10)] := by
  have digit : ∀ x : UInt16, (x % 10).toUInt8 = UInt8.ofNat (x.toNat % 10) := by
    intro x
    apply UInt8.toNat_inj.mp
    rw [UInt16.toNat_toUInt8, UInt16.toNat_mod, UInt8.toNat_ofNat']
    rfl
  rw [fourDigits, digit, digit, digit, digit, UInt16.toNat_div, UInt16.toNat_div, UInt16.toNat_div]
  rfl

theorem twoDigits_inj {v w : UInt8} : twoDigits v = twoDigits w ↔ v.toNat % 100 = w.toNat % 100 := by
  rw [twoDigits_eq, twoDigits_eq, List.cons_eq_cons, digit_inj (by omega) (by omega), List.cons_eq_cons,
    digit_inj (by omega) (by omega)]
  constructor
  · rintro ⟨high, low, -⟩
    omega
  · intro same
    exact ⟨by omega, by omega, rfl⟩

theorem fourDigits_inj {v w : UInt16} : fourDigits v = fourDigits w ↔
    v.toNat / 100 % 100 = w.toNat / 100 % 100 ∧ v.toNat % 100 = w.toNat % 100 := by
  rw [fourDigits_eq, fourDigits_eq]
  simp only [List.cons_eq_cons]
  rw [digit_inj (by omega) (by omega), digit_inj (by omega) (by omega), digit_inj (by omega) (by omega),
    digit_inj (by omega) (by omega)]
  constructor
  · rintro ⟨thousands, hundreds, tens, ones, -⟩
    omega
  · rintro ⟨high, low⟩
    exact ⟨by omega, by omega, by omega, by omega, trivial⟩

/-- A part of a known length is known from the whole. -/
theorem append_eq_iff {x y : List UInt8} (same : left.length = right.length) :
    left ++ x = right ++ y ↔ left = right ∧ x = y :=
  ⟨fun equal => List.append_inj equal same, fun parts => by rw [parts.1, parts.2]⟩

theorem utc_inj : a.utc = b.utc ↔ a.shown = b.shown := by
  have two : ∀ v w : UInt8, (twoDigits v).length = (twoDigits w).length := fun _ _ => rfl
  have four : (fourDigits a.year).length = (fourDigits b.year).length := rfl
  simp only [BootTime.utc, BootTime.shown, List.cons_eq_cons]
  simp only [append_eq_iff four, append_eq_iff (two _ _), List.cons_eq_cons, fourDigits_inj, twoDigits_inj, and_assoc,
    true_and, and_true]

theorem bootprojText_inj {d e : Sha256.Digest} :
    bootprojText d a = bootprojText e b ↔ d = e ∧ a.shown = b.shown ∧ a.tsc = b.tsc := by
  have digests : d.toList.length = e.toList.length := by rw [Vector.length_toList, Vector.length_toList]
  have times : a.utc.length = b.utc.length := by rw [length_utc, length_utc]
  rw [bootprojText, bootprojText, append_eq_iff digests, append_eq_iff times, Vector.toList_inj, utc_inj,
    beBytes_toNat_inj]

theorem bootTimeRow_inj : bootTimeRow a = bootTimeRow b ↔ a.shown = b.shown ∧ a.tsc = b.tsc := by
  have times : a.utc.length = b.utc.length := by rw [length_utc, length_utc]
  rw [bootTimeRow, bootTimeRow, List.append_right_inj, append_eq_iff times, List.append_right_inj, List.append_left_inj,
    utc_inj]
  refine and_congr_right fun _ => ⟨fun same => UInt64.toNat_inj.mp (decimalBytes_inj same), fun same => by rw [same]⟩

end Texts

section Boots
variable {cmosRead cmosRead' : CmosReads} {statusB statusB' : UInt8} {hasCentury hasCentury' : Bool}
  {clock clock' : Nat → WallClock}

/-- What is read of a chip fits the text of a time. -/
theorem readBootTime_inRange (shows : Shows cmosRead statusB hasCentury clock) (tsc : UInt64) :
    (readBootTime cmosRead tsc).InRange := by
  intro field member
  rw [readBootTime, fields_decode shows] at member
  change field ∈ [(clock _).centuryRead hasCentury, (clock _).year, (clock _).month, (clock _).day, (clock _).hour,
    (clock _).min, (clock _).sec] at member
  simp only [List.mem_cons, List.not_mem_nil, or_false] at member
  rcases member with rfl | rfl | rfl | rfl | rfl | rfl | rfl
  · exact (clock _).centuryRead_lt hasCentury
  · exact (clock _).year_lt
  · exact (clock _).month_bounds.2.trans_lt (by decide)
  · exact (clock _).day_bounds.2.trans_lt (by decide)
  · exact (clock _).hour_lt.trans (by decide)
  · exact (clock _).min_lt.trans (by decide)
  · exact (clock _).sec_lt.trans (by decide)

/-- Two boots hash the same bytes for their PIDs only for the same device at
the same time and tick, and print the same clock only for the latter. -/
theorem boots_told_apart (shows : Shows cmosRead statusB hasCentury clock)
    (shows' : Shows cmosRead' statusB' hasCentury' clock') (tsc tsc' : UInt64) (device device' : Sha256.Digest) :
    (bootprojPreimage device (readBootTime cmosRead tsc) = bootprojPreimage device' (readBootTime cmosRead' tsc') ↔
      device = device' ∧ (readBootTime cmosRead tsc).fields = (readBootTime cmosRead' tsc').fields ∧ tsc = tsc') ∧
    (emitBoottime (readBootTime cmosRead tsc) = emitBoottime (readBootTime cmosRead' tsc') ↔
      (readBootTime cmosRead tsc).fields = (readBootTime cmosRead' tsc').fields ∧ tsc = tsc') := by
  have here := BootTime.shown_eq_fields (readBootTime_inRange shows tsc)
  have there := BootTime.shown_eq_fields (readBootTime_inRange shows' tsc')
  constructor
  · rw [bootprojPreimage_eq, bootprojPreimage_eq, Option.some_inj, bootprojText_inj, here, there]
    rfl
  · rw [emitBoottime_eq, emitBoottime_eq, Option.some_inj, bootTimeRow_inj, here, there]
    rfl

/-- The same device at two times, with the same tick. -/
theorem boots_told_apart_same_tick :
    bootprojPreimage (.replicate 32 0) (readBootTime turningChip 7) ≠
        bootprojPreimage (.replicate 32 0) (readBootTime (fun _ reg => afternoon.register 0x00 false reg) 7) ∧
      emitBoottime (readBootTime turningChip 7) ≠
        emitBoottime (readBootTime (fun _ reg => afternoon.register 0x00 false reg) 7) := by
  have shows : Shows turningChip 0x00 true turningClock := fun _ _ _ => rfl
  have shows' : Shows (fun _ reg => afternoon.register 0x00 false reg) 0x00 false fun _ => afternoon := fun _ _ _ => rfl
  have apart := boots_told_apart shows shows' 7 7 (.replicate 32 0) (.replicate 32 0)
  have different : (readBootTime turningChip 7).fields ≠
      (readBootTime (fun _ reg => afternoon.register 0x00 false reg) 7).fields := by
    rw [readBootTime, readBootTime, waitForUpdate_idle rfl, waitForUpdate_idle rfl]
    decide
  exact ⟨fun same => different (apart.1.mp same).2.1, fun same => different (apart.2.mp same).1⟩

end Boots

end Asolaria.Boot
