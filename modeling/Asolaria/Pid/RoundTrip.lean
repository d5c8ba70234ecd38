import Asolaria.Library.Delimited
import Asolaria.Library.Guard
import Asolaria.Pid.Format

namespace Asolaria.Pid
open Library

/-- The fields `mint_pid` accepts. -/
structure ValidFields (region : UInt8) (hostCode activity wave : Str) : Prop where
  region : isValidRegion region = true
  hostCode : isValidHostCode hostCode = true
  activity : isValidHexN activity 2 = true
  wave : isValidHexN wave 3 = true

/-- The blocks behind the separator in the short form. -/
def shortBlocks (region : UInt8) (hostCode activity wave : Str) : List Str :=
  [region :: hostCode, 65 :: activity, 87 :: wave]

/-- The blocks behind the separator in the extended form. -/
def extendedBlocks (region : UInt8) (hostCode activity wave processTag nonce : Str) : List Str :=
  shortBlocks region hostCode activity wave ++ [80 :: processTag, 78 :: nonce]

variable {role hostCode activity wave processTag nonce date tail s : Str} {region : UInt8}

theorem isValidRegion_iff : isValidRegion region = true ↔ region = 71 ∨ region = 72 ∨ region = 70 ∨ region = 68 := by
  simp [isValidRegion, or_assoc]

/-- A byte that is no hexadecimal digit does not occur among them. -/
theorem not_mem_hex {b : UInt8} {n : Nat} (hex : isValidHexN s n = true) (other : isAsciiHexdigit b = false) : b ∉ s := by
  intro member
  have digits := (Bool.and_eq_true_iff.mp hex).2
  rw [List.all_eq_true.mp digits b member] at other
  cases other

theorem pushChar_region (valid : isValidRegion region = true) (s : Str) : pushChar s region = s ++ [region] := by
  rcases isValidRegion_iff.mp valid with rfl | rfl | rfl | rfl <;> rfl

theorem mintPid_ok_iff : mintPid role region hostCode activity wave = .ok s ↔
    ValidFields region hostCode activity wave ∧
      s = role ++ (separator ++ [45].intercalate (shortBlocks region hostCode activity wave)) := by
  rw [mintPid, guard_ok_iff, guard_ok_iff, guard_ok_iff, guard_ok_iff]
  simp only [Bool.not_eq_true', Bool.not_eq_false, Except.ok.injEq]
  constructor
  · rintro ⟨validRegion, validHost, validActivity, validWave, rfl⟩
    refine ⟨⟨validRegion, validHost, validActivity, validWave⟩, ?_⟩
    simp [pushChar_region validRegion, shortBlocks, List.intercalate]
  · rintro ⟨valid, rfl⟩
    refine ⟨valid.region, valid.hostCode, valid.activity, valid.wave, ?_⟩
    simp [pushChar_region valid.region, shortBlocks, List.intercalate]

theorem mintPidExtended_ok_iff : mintPidExtended role region hostCode activity wave processTag nonce = .ok s ↔
    ValidFields region hostCode activity wave ∧ isValidHexN processTag 2 = true ∧ isValidHexN nonce 5 = true ∧
      s = role ++ (separator ++ [45].intercalate (extendedBlocks region hostCode activity wave processTag nonce)) := by
  have joined : [45].intercalate (extendedBlocks region hostCode activity wave processTag nonce) =
      [45].intercalate (shortBlocks region hostCode activity wave) ++ [45, 80] ++ processTag ++ [45, 78] ++ nonce := by
    simp [extendedBlocks, shortBlocks, List.intercalate]
  rw [mintPidExtended]
  cases minted : mintPid role region hostCode activity wave with
  | error error =>
    refine ⟨fun equal => (by cases equal), fun ⟨valid, _⟩ => ?_⟩
    cases minted.symm.trans (mintPid_ok_iff.mpr ⟨valid, rfl⟩)
  | ok short =>
    obtain ⟨valid, rfl⟩ := mintPid_ok_iff.mp minted
    simp only [guard_ok_iff, Bool.not_eq_true', Bool.not_eq_false, Except.ok.injEq]
    rw [joined]
    constructor
    · rintro ⟨process, last, rfl⟩
      exact ⟨valid, process, last, by simp⟩
    · rintro ⟨-, process, last, rfl⟩
      exact ⟨process, last, by simp⟩

theorem mintAnchorPid_ok_iff : mintAnchorPid role date = .ok s ↔ isDate date = true ∧ s = role ++ (separator ++ date) := by
  rw [mintAnchorPid, guard_ok_iff, guard_ok_iff, guard_ok_iff]
  simp only [Bool.not_eq_true', Bool.not_eq_false, Except.ok.injEq, not_or, not_not, isDate, Bool.and_eq_true,
    beq_iff_eq, ne_eq]
  constructor
  · rintro ⟨length, dashes, digits, rfl⟩
    exact ⟨⟨⟨⟨length, dashes.1⟩, dashes.2⟩, digits⟩, by simp⟩
  · rintro ⟨⟨⟨⟨length, first⟩, second⟩, digits⟩, rfl⟩
    exact ⟨length, ⟨first, second⟩, digits, by simp⟩

/-- No second separator fits behind the one that was minted: its third letter
occurs neither in the rest of it nor in the tail. -/
theorem separator_last (plain : 73 ∉ tail) (i : Nat) : ¬ separator <+: (separator ++ tail).drop (i + 1) := by
  rintro ⟨rest, found⟩
  have letter : ((separator ++ tail).drop (i + 1))[2]? = some 73 := by
    rw [← found]
    rfl
  rw [List.getElem?_drop] at letter
  rcases i with _ | _ | i
  · cases letter
  · cases letter
  · have inTail : tail[i]? = some 73 := by
      rw [List.getElem?_append_right (by simp [separator])] at letter
      rw [← letter]
      congr 1
    exact plain (List.mem_of_getElem? inTail)

theorem parsePid_eq (plain : 73 ∉ tail) : parsePid (role ++ (separator ++ tail)) = parseTail role tail := by
  have found := rfind_append role (by decide) (separator_last plain)
  have front : (role ++ (separator ++ tail)).take role.length = role := List.take_left
  have back : (role ++ (separator ++ tail)).drop (role.length + 5) = tail := by
    rw [← List.drop_drop, List.drop_left]
    rfl
  rw [parsePid, found]
  show parseTail (List.take _ _) (List.drop _ _) = _
  rw [front, back]

/-- Every parsed string is its role, the separator and a tail. -/
theorem parsePid_ok {parsed : ParsedPid} (accepted : parsePid s = .ok parsed) :
    ∃ role tail, s = role ++ (separator ++ tail) ∧ parseTail role tail = .ok parsed := by
  rw [parsePid] at accepted
  cases found : rfind separator s with
  | none =>
    rw [found] at accepted
    cases accepted
  | some idx =>
    rw [found] at accepted
    refine ⟨s.take idx, s.drop (idx + 5), ?_, accepted⟩
    rw [← List.append_assoc]
    exact rfind_some found

theorem length_of_hex {n : Nat} (hex : isValidHexN s n = true) : s.length = n := by
  simpa using (Bool.and_eq_true_iff.mp hex).1

theorem isDate_length (date : isDate tail = true) : tail.length = 10 := by
  simp only [isDate, Bool.and_eq_true, beq_iff_eq] at date
  exact date.1.1.1

/-- The blocks of a canonical form contain neither a dash nor the third
letter of the separator. -/
theorem ValidFields.plain {b : UInt8} (valid : ValidFields region hostCode activity wave)
    (special : b = 45 ∨ b = 73) : ∀ block ∈ shortBlocks region hostCode activity wave, b ∉ block := by
  have other : isAsciiHexdigit b = false := by rcases special with rfl | rfl <;> rfl
  have regionOther : b ≠ region := by
    rintro rfl
    rcases special with rfl | rfl <;> exact absurd valid.region (by decide)
  have tags : b ≠ 65 ∧ b ≠ 87 := by rcases special with rfl | rfl <;> decide
  intro block member
  simp only [shortBlocks, List.mem_cons, List.not_mem_nil, or_false] at member
  rcases member with rfl | rfl | rfl
  · exact List.not_mem_cons_of_ne_of_not_mem regionOther (not_mem_hex valid.hostCode other)
  · exact List.not_mem_cons_of_ne_of_not_mem tags.1 (not_mem_hex valid.activity other)
  · exact List.not_mem_cons_of_ne_of_not_mem tags.2 (not_mem_hex valid.wave other)

theorem ValidFields.plain_extended {b : UInt8} (valid : ValidFields region hostCode activity wave)
    (process : isValidHexN processTag 2 = true) (last : isValidHexN nonce 5 = true) (special : b = 45 ∨ b = 73) :
    ∀ block ∈ extendedBlocks region hostCode activity wave processTag nonce, b ∉ block := by
  have other : isAsciiHexdigit b = false := by rcases special with rfl | rfl <;> rfl
  have tags : b ≠ 80 ∧ b ≠ 78 := by rcases special with rfl | rfl <;> decide
  intro block member
  rcases List.mem_append.mp member with front | back
  · exact valid.plain special block front
  · simp only [List.mem_cons, List.not_mem_nil, or_false] at back
    rcases back with rfl | rfl
    · exact List.not_mem_cons_of_ne_of_not_mem tags.1 (not_mem_hex process other)
    · exact List.not_mem_cons_of_ne_of_not_mem tags.2 (not_mem_hex last other)

/-- A letter that is in no block and is not the dash is not in the text. -/
theorem not_mem_joined {blocks : List Str} {b : UInt8} (noDash : b ≠ 45) (plain : ∀ block ∈ blocks, b ∉ block) :
    b ∉ [45].intercalate blocks := by
  induction blocks with
  | nil => simp [List.intercalate]
  | cons first rest ih =>
    have here := plain first (by simp)
    have later := ih fun block member => plain block (List.mem_cons_of_mem _ member)
    cases rest with
    | nil => simpa [List.intercalate] using here
    | cons second rest =>
      rw [intercalate_cons]
      simp [here, later, noDash]

theorem parseTail_short (valid : ValidFields region hostCode activity wave) (role : Str) :
    parseTail role ([45].intercalate (shortBlocks region hostCode activity wave)) =
      .ok (.canonical ⟨role, region, hostCode, activity, wave, none, none⟩) := by
  have host := length_of_hex valid.hostCode
  have act := length_of_hex valid.activity
  have last := length_of_hex valid.wave
  have long : isDate ([45].intercalate (shortBlocks region hostCode activity wave)) = false := by
    rw [Bool.eq_false_iff]
    intro date
    have length := isDate_length date
    simp [shortBlocks, List.intercalate, host, act, last] at length
  rw [parseTail, long, List.splitOn_intercalate 45 (valid.plain (.inl rfl)) (by simp [shortBlocks])]
  simp [shortBlocks, parseParts, isBlock, host, valid.region, valid.hostCode, valid.activity, valid.wave]

theorem parseTail_extended (valid : ValidFields region hostCode activity wave)
    (process : isValidHexN processTag 2 = true) (last : isValidHexN nonce 5 = true) (role : Str) :
    parseTail role ([45].intercalate (extendedBlocks region hostCode activity wave processTag nonce)) =
      .ok (.canonical ⟨role, region, hostCode, activity, wave, some processTag, some nonce⟩) := by
  have host := length_of_hex valid.hostCode
  have long : isDate ([45].intercalate (extendedBlocks region hostCode activity wave processTag nonce)) = false := by
    rw [Bool.eq_false_iff]
    intro date
    have length := isDate_length date
    simp [extendedBlocks, shortBlocks, List.intercalate, host, length_of_hex valid.activity, length_of_hex valid.wave,
      length_of_hex process, length_of_hex last] at length
  rw [parseTail, long, List.splitOn_intercalate 45 (valid.plain_extended process last (.inl rfl))
    (by simp [extendedBlocks, shortBlocks])]
  simp [extendedBlocks, shortBlocks, parseParts, isBlock, host, valid.region, valid.hostCode, valid.activity, valid.wave,
    process, last]

theorem mem_slice {b : UInt8} {i lo hi : Nat} (found : s[i]? = some b) (low : lo ≤ i) (high : i < hi) :
    b ∈ (s.take hi).drop lo := by
  refine List.mem_iff_getElem?.mpr ⟨i - lo, ?_⟩
  rw [List.getElem?_drop, Nat.add_sub_of_le low, List.getElem?_take_of_lt high, found]

/-- A date is made of digits and dashes. -/
theorem isDate_plain {b : UInt8} (date : isDate tail = true) (noDash : b ≠ 45) (other : isAsciiDigit b = false) :
    b ∉ tail := by
  intro member
  obtain ⟨i, found⟩ := List.mem_iff_getElem?.mp member
  have length := isDate_length date
  have bound := (List.getElem?_eq_some_iff.mp found).1
  simp only [isDate, Bool.and_eq_true, beq_iff_eq] at date
  obtain ⟨⟨⟨_, first⟩, second⟩, ⟨year, month⟩, day⟩ := date
  have inSlice {lo hi : Nat} (digits : ((tail.take hi).drop lo).all isAsciiDigit = true) (low : lo ≤ i) (high : i < hi) :
      False := by
    have digit := List.all_eq_true.mp digits b (mem_slice found low high)
    rw [other] at digit
    cases digit
  have place : i < 4 ∨ i = 4 ∨ 5 ≤ i ∧ i < 7 ∨ i = 7 ∨ 8 ≤ i ∧ i < 10 := by omega
  rcases place with inYear | rfl | inMonth | rfl | inDay
  · exact @inSlice 0 4 year (Nat.zero_le _) inYear
  · exact noDash (Option.some.inj (found.symm.trans first))
  · exact inSlice month inMonth.1 inMonth.2
  · exact noDash (Option.some.inj (found.symm.trans second))
  · exact inSlice day inDay.1 inDay.2

theorem isBlock_iff {tag : UInt8} {n : Nat} {block : Str} :
    isBlock tag n block = true ↔ ∃ digits, block = tag :: digits ∧ isValidHexN digits n = true := by
  cases block with
  | nil => simp [isBlock]
  | cons first rest =>
    simp only [isBlock, List.head?_cons, Bool.and_eq_true, beq_iff_eq, Option.some.injEq, List.drop_succ_cons,
      List.drop_zero, List.cons.injEq]
    constructor
    · rintro ⟨rfl, hex⟩
      exact ⟨rest, ⟨rfl, rfl⟩, hex⟩
    · rintro ⟨digits, ⟨rfl, rfl⟩, hex⟩
      exact ⟨rfl, hex⟩

/-- The blocks of an accepted canonical form, and what is read off them. -/
inductive BlocksCase (role : Str) : List Str → ParsedPid → Prop
  | short (r : UInt8) (h a w : Str) : ValidFields r h a w →
      BlocksCase role (shortBlocks r h a w) (.canonical ⟨role, r, h, a, w, none, none⟩)
  | extended (r : UInt8) (h a w p n : Str) : ValidFields r h a w → isValidHexN p 2 = true → isValidHexN n 5 = true →
      BlocksCase role (extendedBlocks r h a w p n) (.canonical ⟨role, r, h, a, w, some p, some n⟩)

theorem parseParts_ok {regionHost activityBlock waveBlock : Str} {suffix : Option (Str × Str)} {parsed : ParsedPid}
    (accepted : parseParts role regionHost activityBlock waveBlock suffix = .ok parsed) :
    BlocksCase role ([regionHost, activityBlock, waveBlock] ++ suffix.elim [] fun blocks => [blocks.1, blocks.2])
      parsed := by
  rw [parseParts, guard_ok_iff] at accepted
  obtain ⟨length, accepted⟩ := accepted
  obtain ⟨region, hostCode, rfl⟩ : ∃ region hostCode, regionHost = region :: hostCode :=
    List.exists_cons_of_ne_nil fun empty => by simp [empty] at length
  simp only [guard_ok_iff, Bool.not_eq_true', Bool.not_eq_false, List.headD_cons, List.drop_succ_cons, List.drop_zero]
    at accepted
  obtain ⟨validRegion, validHost, activityOk, waveOk, accepted⟩ := accepted
  obtain ⟨activity, rfl, validActivity⟩ := isBlock_iff.mp activityOk
  obtain ⟨wave, rfl, validWave⟩ := isBlock_iff.mp waveOk
  have valid : ValidFields region hostCode activity wave := ⟨validRegion, validHost, validActivity, validWave⟩
  cases suffix with
  | none =>
    cases accepted
    exact .short region hostCode activity wave valid
  | some blocks =>
    obtain ⟨processBlock, nonceBlock⟩ := blocks
    simp only [guard_ok_iff, Bool.not_eq_false] at accepted
    obtain ⟨processOk, nonceOk, accepted⟩ := accepted
    obtain ⟨processTag, rfl, process⟩ := isBlock_iff.mp processOk
    obtain ⟨nonce, rfl, last⟩ := isBlock_iff.mp nonceOk
    cases accepted
    exact .extended region hostCode activity wave processTag nonce valid process last

theorem parseTail_ok {parsed : ParsedPid} (accepted : parseTail role tail = .ok parsed) :
    isDate tail = true ∧ parsed = .anchor ⟨role, tail⟩ ∨ BlocksCase role (tail.splitOn 45) parsed := by
  rw [parseTail] at accepted
  split at accepted
  · next date =>
    cases accepted
    exact .inl ⟨date, rfl⟩
  · split at accepted
    · next blocks =>
      rw [blocks]
      exact .inr (parseParts_ok accepted)
    · next blocks =>
      rw [blocks]
      exact .inr (parseParts_ok accepted)
    · cases accepted

/-- Minting with the function that corresponds to the parsed form. -/
def ParsedPid.mint : ParsedPid → Except PidErr Str
  | .anchor p => mintAnchorPid p.role p.date
  | .canonical ⟨role, region, hostCode, activity, wave, some processTag, some nonce⟩ =>
    mintPidExtended role region hostCode activity wave processTag nonce
  | .canonical p => mintPid p.role p.region p.hostCode p.activity p.wave

theorem mint_of_parsePid {parsed : ParsedPid} (accepted : parsePid s = .ok parsed) : parsed.mint = .ok s := by
  obtain ⟨role, tail, rfl, read⟩ := parsePid_ok accepted
  have joined : [45].intercalate (tail.splitOn 45) = tail := List.intercalate_splitOn 45
  rcases parseTail_ok read with ⟨date, rfl⟩ | blocks
  · exact mintAnchorPid_ok_iff.mpr ⟨date, rfl⟩
  · generalize tail.splitOn 45 = parts at blocks joined
    subst joined
    cases blocks with
    | short r h a w valid => exact mintPid_ok_iff.mpr ⟨valid, rfl⟩
    | extended r h a w p n valid process last => exact mintPidExtended_ok_iff.mpr ⟨valid, process, last, rfl⟩

theorem parsePid_of_mintPid (minted : mintPid role region hostCode activity wave = .ok s) :
    parsePid s = .ok (.canonical ⟨role, region, hostCode, activity, wave, none, none⟩) := by
  obtain ⟨valid, rfl⟩ := mintPid_ok_iff.mp minted
  rw [parsePid_eq (not_mem_joined (by decide) (valid.plain (.inr rfl))), parseTail_short valid]

theorem parsePid_of_mintPidExtended
    (minted : mintPidExtended role region hostCode activity wave processTag nonce = .ok s) :
    parsePid s = .ok (.canonical ⟨role, region, hostCode, activity, wave, some processTag, some nonce⟩) := by
  obtain ⟨valid, process, last, rfl⟩ := mintPidExtended_ok_iff.mp minted
  rw [parsePid_eq (not_mem_joined (by decide) (valid.plain_extended process last (.inr rfl))),
    parseTail_extended valid process last]

theorem parsePid_of_mintAnchorPid (minted : mintAnchorPid role date = .ok s) : parsePid s = .ok (.anchor ⟨role, date⟩) := by
  obtain ⟨valid, rfl⟩ := mintAnchorPid_ok_iff.mp minted
  rw [parsePid_eq (isDate_plain valid (by decide) rfl), parseTail, if_pos valid]

/-- Minting and parsing are inverse to each other on all three forms, for any
role whatsoever, and a minted string is classified by its form. -/
theorem mint_parse_inverse :
    (∀ role region hostCode activity wave s, mintPid role region hostCode activity wave = .ok s →
      parsePid s = .ok (.canonical ⟨role, region, hostCode, activity, wave, none, none⟩) ∧
      classifySubclass s = .regular) ∧
    (∀ role region hostCode activity wave processTag nonce s,
      mintPidExtended role region hostCode activity wave processTag nonce = .ok s →
      parsePid s = .ok (.canonical ⟨role, region, hostCode, activity, wave, some processTag, some nonce⟩) ∧
      classifySubclass s = .regularExtended) ∧
    (∀ role date s, mintAnchorPid role date = .ok s →
      parsePid s = .ok (.anchor ⟨role, date⟩) ∧ classifySubclass s = .anchor) ∧
    ∀ s parsed, parsePid s = .ok parsed → parsed.mint = .ok s := by
  refine ⟨fun role region hostCode activity wave s minted => ?_,
    fun role region hostCode activity wave processTag nonce s minted => ?_, fun role date s minted => ?_,
    fun s parsed accepted => mint_of_parsePid accepted⟩
  · have parsed := parsePid_of_mintPid minted
    exact ⟨parsed, by rw [classifySubclass, parsed]; rfl⟩
  · have parsed := parsePid_of_mintPidExtended minted
    exact ⟨parsed, by rw [classifySubclass, parsed]; rfl⟩
  · have parsed := parsePid_of_mintAnchorPid minted
    exact ⟨parsed, by rw [classifySubclass, parsed]⟩

/-- A role that itself ends like a separator. -/
theorem mint_parse_inverse_nested : ∃ s, mintPid (utf8 "A-PID-B-PID") 71 (utf8 "0000") (utf8 "00") (utf8 "000") = .ok s ∧
    parsePid s = .ok (.canonical ⟨utf8 "A-PID-B-PID", 71, utf8 "0000", utf8 "00", utf8 "000", none, none⟩) := by
  have minted : mintPid (utf8 "A-PID-B-PID") 71 (utf8 "0000") (utf8 "00") (utf8 "000") =
      .ok (utf8 "A-PID-B-PID-PID-G0000-A00-W000") := by decide
  exact ⟨_, minted, (mint_parse_inverse.1 _ _ _ _ _ _ minted).1⟩

end Asolaria.Pid
