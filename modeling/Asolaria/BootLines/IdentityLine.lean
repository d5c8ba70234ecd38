import Asolaria.BootLines.StatusLine

namespace Asolaria.BootLines
open Library

structure BootIdentity where
  seat : String
  devicePid : String
  operatorPid : String
  coOperatorPid : String
  roomPid : String
  glyph : String
  cohort : String
  hilbert : UInt32
  tupleDim : UInt64
  date : String
  location : String
  deriving DecidableEq, Repr

def identitySeed (identity : BootIdentity) : List UInt8 :=
  if (utf8 identity.devicePid).isEmpty then utf8 identity.seat else utf8 identity.devicePid

/-- `seed[index % seed.len()]`. -/
def seedAt (seed : List UInt8) (index : UInt64) : Option UInt16 := do
  let place ← remChecked index.toNat seed.length
  let byte ← seed[place]?
  return byte.toUInt16

def selectorAxisU10 (identity : BootIdentity) (index : UInt64) : Option UInt16 := do
  let seed := identitySeed identity
  let a ← seedAt seed index
  let b ← seedAt seed (index * 7 + 3)
  let c ← seedAt seed (index * 13 + 11)
  return (a * 31 + b * 17 + c * 7 + index.toUInt16 * 19) &&& 0x03ff

/-- The pushes of `render_boot_identity_line_inner` in front of its loop. -/
def identityPushes (identity : BootIdentity) : List Push := [
  .str "ASOBTID|format=hbpish|evidence=BUILD_TIME_DEVICE_CONTEXT|source=uefi|json=0",
  .str "|seat=",
  .str identity.seat,
  .str "|device_pid=",
  .str identity.devicePid,
  .str "|operator_pid=",
  .str identity.operatorPid,
  .str "|co_operator_pid=",
  .str identity.coOperatorPid,
  .str "|room_pid=",
  .str identity.roomPid,
  .str "|glyph=",
  .str identity.glyph,
  .str "|cohort=",
  .str identity.cohort,
  .str "|hilbert=",
  .u32 identity.hilbert,
  .str "|tuple_dim=",
  .usize identity.tupleDim,
  .str "|date=",
  .str identity.date,
  .str "|location=",
  .str identity.location,
  .str "|axes="]

/-- The body of the loop. `IdentityLineWriter` has room for 20 digits. -/
def pushAxis (identity : BootIdentity) (writer : LineWriter) (i : Nat) : Option LineWriter := do
  let writer ← (if i ≠ 0 then writer.push 20 (.byte 44) else some writer : Option LineWriter)
  let axis ← selectorAxisU10 identity (UInt64.ofNat i)
  writer.push 20 (.u16 axis)

/-- The loop ends at `tuple_dim`, so its index stays a machine word. -/
def renderBootIdentityLineInner (identity : BootIdentity) (writer : LineWriter) : Option LineWriter := do
  let writer ← writer.pushAll 20 (identityPushes identity)
  (List.range identity.tupleDim.toNat).foldlM (pushAxis identity) writer

def bootIdentityLineLen (identity : BootIdentity) : Option Nat := lineLen (renderBootIdentityLineInner identity)

def renderBootIdentityLine (identity : BootIdentity) (out : Slice) : Option (Except RenderError Nat × List UInt8) :=
  renderLine (renderBootIdentityLineInner identity) out

/-- The text of an axis and the comma in front of it. -/
def axisText (identity : BootIdentity) (i : Nat) : List UInt8 :=
  (if i ≠ 0 then [44] else []) ++ decimalBytes ((selectorAxisU10 identity (UInt64.ofNat i)).getD 0).toNat

/-- The full identity line. -/
def identityLine (identity : BootIdentity) : List UInt8 :=
  (identityPushes identity).flatMap Push.bytes ++ (List.range identity.tupleDim.toNat).flatMap (axisText identity)

/-- The identity has a text to take its axes from. -/
def Seeded (identity : BootIdentity) : Prop := identity.devicePid ≠ "" ∨ identity.seat ≠ ""

/-- The calls end without a panic, and all axes are values of ten bits. -/
structure Completes (identity : BootIdentity) : Prop where
  counted : ∃ len, bootIdentityLineLen identity = some len
  rendered : ∀ out, ∃ result, renderBootIdentityLine identity out = some result
  axes : ∀ i < identity.tupleDim, ∃ axis, selectorAxisU10 identity i = some axis ∧ axis < 1024

variable {identity : BootIdentity}

theorem utf8_eq_nil {text : String} : utf8 text = [] ↔ text = "" := by
  rw [show ([] : List UInt8) = utf8 "" from rfl, utf8_inj]

theorem identitySeed_eq_nil : identitySeed identity = [] ↔ ¬ Seeded identity := by
  rw [identitySeed, Seeded, not_or, not_not, not_not]
  split
  · next empty =>
    rw [List.isEmpty_iff, utf8_eq_nil] at empty
    rw [utf8_eq_nil, and_iff_right empty]
  · next some =>
    rw [List.isEmpty_iff, utf8_eq_nil] at some
    rw [utf8_eq_nil]
    exact iff_of_false some fun both => some both.1

theorem seedAt_eq_none {seed : List UInt8} {index : UInt64} (empty : seed = []) : seedAt seed index = none := by
  rw [seedAt, remChecked_eq_none.mpr (List.length_eq_zero_iff.mpr empty)]
  rfl

theorem seedAt_eq_some {seed : List UInt8} {index : UInt64} (filled : seed ≠ []) :
    ∃ a, seedAt seed index = some a := by
  have positive : seed.length ≠ 0 := fun zero => filled (List.length_eq_zero_iff.mp zero)
  have inside : index.toNat % seed.length < seed.length := Nat.mod_lt _ (Nat.pos_of_ne_zero positive)
  rw [seedAt, remChecked, if_neg positive]
  simp only [Option.bind_eq_bind, Option.bind_some, List.getElem?_eq_getElem inside]
  exact ⟨_, rfl⟩

/-- Each axis is computed from the seed and has ten bits. -/
theorem selectorAxisU10_eq_some (seeded : Seeded identity) (i : UInt64) :
    ∃ axis, selectorAxisU10 identity i = some axis ∧ axis < 1024 := by
  have filled : identitySeed identity ≠ [] := fun empty => identitySeed_eq_nil.mp empty seeded
  obtain ⟨a, readA⟩ := @seedAt_eq_some _ i filled
  obtain ⟨b, readB⟩ := @seedAt_eq_some _ (i * 7 + 3) filled
  obtain ⟨c, readC⟩ := @seedAt_eq_some _ (i * 13 + 11) filled
  refine ⟨(a * 31 + b * 17 + c * 7 + i.toUInt16 * 19) &&& 0x03ff, ?_, ?_⟩
  · rw [selectorAxisU10, readA, readB, readC]
    rfl
  · rw [UInt16.lt_iff_toNat_lt, UInt16.toNat_and]
    exact Nat.lt_of_le_of_lt Nat.and_le_right (by decide)

/-- Without a seed the first axis divides by zero. -/
theorem selectorAxisU10_eq_none (unseeded : ¬ Seeded identity) (i : UInt64) : selectorAxisU10 identity i = none := by
  rw [selectorAxisU10, seedAt_eq_none (identitySeed_eq_nil.mpr unseeded)]
  rfl

theorem prints_axis (seeded : Seeded identity) (i : Nat) :
    Prints (fun w => pushAxis identity w i) (axisText identity i) := by
  obtain ⟨axis, computed, -⟩ := selectorAxisU10_eq_some seeded (UInt64.ofNat i)
  have number : Prints (fun w => w.push 20 (.u16 axis)) (decimalBytes axis.toNat) := by
    have same : decimalBytes axis.toNat = (Push.u16 axis).bytes := by
      rw [Push.u16, Push.bytes, UInt16.toNat_toUInt64]
    rw [same]
    exact Prints.push (by decide) _
  have comma : Prints (fun w => if i ≠ 0 then w.push 20 (.byte 44) else some w) (if i ≠ 0 then [44] else []) := by
    split
    · exact Prints.push (by decide) (.byte 44)
    · exact Prints.nil
  have body := comma.append number
  intro old front word
  have pushed := body old front word
  rw [axisText, computed]
  show pushAxis identity (.after old front) i = _
  rw [pushAxis, computed]
  exact pushed

theorem prints_identityLine (seeded : Seeded identity) :
    Prints (renderBootIdentityLineInner identity) (identityLine identity) :=
  (Prints.pushAll (by decide) (identityPushes identity)).append (Prints.foldlM fun i _ => prints_axis seeded i)

/-- Without a seed the loop stops the program in its first turn. -/
theorem inner_eq_none (unseeded : ¬ Seeded identity) (some : identity.tupleDim ≠ 0) (writer : LineWriter) :
    renderBootIdentityLineInner identity writer = none := by
  obtain ⟨turns, count⟩ : ∃ turns, identity.tupleDim.toNat = turns + 1 :=
    Nat.exists_eq_add_one_of_ne_zero fun zero => some (UInt64.toNat_inj.mp zero)
  have turn (w : LineWriter) : pushAxis identity w 0 = none := by
    rw [pushAxis, if_neg (not_not.mpr rfl), selectorAxisU10_eq_none unseeded]
    rfl
  rw [renderBootIdentityLineInner]
  cases writer.pushAll 20 (identityPushes identity) with
  | none => rfl
  | some w =>
    show (List.range identity.tupleDim.toNat).foldlM (pushAxis identity) w = none
    rw [count, List.range_succ_eq_map, List.foldlM_cons, turn]
    rfl

theorem inner_of_no_axes (none : identity.tupleDim = 0) :
    renderBootIdentityLineInner identity = LineWriter.pushAll 20 (identityPushes identity) := by
  funext writer
  rw [renderBootIdentityLineInner, none]
  exact bind_pure _

/-- The calls complete exactly for the identities with a seed, and for those
without axes. -/
theorem completes_iff (identity : BootIdentity) :
    Completes identity ↔ identity.devicePid ≠ "" ∨ identity.seat ≠ "" ∨ identity.tupleDim = 0 := by
  rw [← or_assoc]
  constructor
  · intro completes
    by_contra neither
    obtain ⟨unseeded, some⟩ := not_or.mp neither
    obtain ⟨len, counted⟩ := completes.counted
    rw [bootIdentityLineLen, lineLen, inner_eq_none unseeded some] at counted
    cases counted
  · intro either
    have printed : ∃ line, Prints (renderBootIdentityLineInner identity) line := by
      rcases either with seeded | none
      · exact ⟨identityLine identity, prints_identityLine seeded⟩
      · exact ⟨_, inner_of_no_axes none ▸ Prints.pushAll (by decide) (identityPushes identity)⟩
    obtain ⟨line, prints⟩ := printed
    refine ⟨⟨_, prints.lineLen_eq⟩, fun out => ⟨_, prints.renderLine_eq out⟩, fun i below => ?_⟩
    rcases either with seeded | none
    · exact selectorAxisU10_eq_some seeded i
    · rw [none] at below
      exact absurd below UInt64.not_lt_zero

/-- An identity whose seed is empty, with the sixty axes of the frame. -/
theorem nameless_does_not_complete : ¬ Completes ⟨"", "", "", "", "", "", "", 0, 60, "", ""⟩ := by
  intro completes
  obtain ⟨len, counted⟩ := completes.counted
  have stopped : bootIdentityLineLen ⟨"", "", "", "", "", "", "", 0, 60, "", ""⟩ = none := by decide +kernel
  rw [stopped] at counted
  cases counted

theorem length_axisText_pos (identity : BootIdentity) (i : Nat) :
    (if i = 0 then 1 else 2) ≤ (axisText identity i).length := by
  have digits := length_decimalBytes_pos ((selectorAxisU10 identity (UInt64.ofNat i)).getD 0).toNat
  rw [axisText, List.length_append]
  by_cases first : i = 0
  · rw [if_pos first]
    omega
  · rw [if_neg first, if_pos first, List.length_singleton]
    omega

/-- The line takes two bytes at least for each axis but the first. -/
theorem length_identityLine_ge (identity : BootIdentity) :
    2 * identity.tupleDim.toNat ≤ (identityLine identity).length := by
  have axes (n : Nat) : 2 * n ≤ ((List.range n).flatMap (axisText identity)).length + 1 := by
    induction n with
    | zero => exact Nat.zero_le _
    | succ n ih =>
      have turn := length_axisText_pos identity n
      rw [List.range_succ, List.flatMap_append, List.flatMap_singleton, List.length_append]
      cases n with
      | zero =>
        rw [if_pos rfl] at turn
        omega
      | succ n =>
        rw [if_neg (Nat.succ_ne_zero n)] at turn
        omega
  have header : 1 ≤ ((identityPushes identity).flatMap Push.bytes).length := by
    have first : 1 ≤ (utf8 "ASOBTID|format=hbpish|evidence=BUILD_TIME_DEVICE_CONTEXT|source=uefi|json=0").length := by
      decide +kernel
    unfold identityPushes
    rw [List.flatMap_cons, List.length_append, Push.bytes]
    omega
  have loop := axes identity.tupleDim.toNat
  rw [identityLine, List.length_append]
  omega

/-- A renderer returns the length of its line where the line fits, asks for
room otherwise, and keeps what fits. -/
def Renders (line : List UInt8) (out : Slice) (result : Option (Except RenderError Nat × List UInt8)) : Prop :=
  ∃ returned buffer, result = some (returned, buffer) ∧
    (returned = .ok line.length ↔ line.length ≤ out.bytes.length) ∧
    (¬ line.length ≤ out.bytes.length → returned = .error (.bufferTooSmall (min line.length usizeMax))) ∧
    buffer = line.take (min line.length out.bytes.length) ++ out.bytes.drop (min line.length out.bytes.length)

theorem Prints.renders {inner : LineWriter → Option LineWriter} {line : List UInt8} (prints : Prints inner line)
    (out : Slice) : Renders line out (renderLine inner out) := by
  refine ⟨_, _, prints.renderLine_eq out, ?_, fun long => if_neg long, ?_⟩
  · by_cases fits : line.length ≤ out.bytes.length
    · rw [if_pos fits]
      exact iff_of_true rfl fits
    · rw [if_neg fits]
      exact iff_of_false (fun same => by cases same) fits
  · by_cases fits : line.length ≤ out.bytes.length
    · rw [Nat.min_eq_left fits, List.take_of_length_le fits, List.take_length]
    · have long := Nat.le_of_not_le fits
      rw [Nat.min_eq_right long, List.drop_length, List.drop_of_length_le long]

/-- Both lines are counted and rendered into any buffer. The count stops at the
largest machine word. -/
theorem lines_rendered (observations : BootObservations) (identity : BootIdentity)
    (seeded : identity.devicePid ≠ "" ∨ identity.seat ≠ "") (out : Slice) :
    (statusLineLen observations = some (statusLine observations).length ∧
      Renders (statusLine observations) out (renderStatusLine observations out) ∧
      (statusLine observations).length ≤ 384) ∧
    bootIdentityLineLen identity = some (min (identityLine identity).length usizeMax) ∧
      Renders (identityLine identity) out (renderBootIdentityLine identity out) := by
  have short := length_statusLine_le observations
  have word : (statusLine observations).length ≤ usizeMax := Nat.le_trans short (by decide)
  refine ⟨⟨?_, (prints_statusLine observations).renders out, short⟩, (prints_identityLine seeded).lineLen_eq,
    (prints_identityLine seeded).renders out⟩
  rw [statusLineLen, (prints_statusLine observations).lineLen_eq, Nat.min_eq_left word]

/-- The identity of the ACER seat. -/
def acerFable5BootIdentity : BootIdentity where
  seat := "ACER-CLAUDE-FABLE5"
  devicePid := "ACER-PID-H740C-A07-W104-P00-N00000"
  operatorPid := "OP-JESSE-PID-G0000-A00-W000-P00-N00000"
  coOperatorPid := "OP-RAYSSA-PID-G0000-A00-W000-P00-N00000"
  roomPid := "8467a937cba309f7"
  glyph := "BH1024:SEAT-FABLE5"
  cohort := "H740C"
  hilbert := 1720
  tupleDim := 60
  date := "2026-07-09"
  location := "SEC-FABLE5-1720"

theorem lines_rendered_acer :
    bootIdentityLineLen acerFable5BootIdentity = some 625 ∧
      renderStatusLine observed (.zeros 8 (by decide)) = some (.error (.bufferTooSmall 237), utf8 "ASOBTDIA") := by
  have rendered := lines_rendered observed acerFable5BootIdentity (.inl (by decide)) (.zeros 8 (by decide))
  obtain ⟨⟨-, ⟨returned, buffer, printed, -, refused, kept⟩, -⟩, counted, -⟩ := rendered
  have length : (identityLine acerFable5BootIdentity).length = 625 := by decide +kernel
  constructor
  · rw [counted, length]
    rfl
  · have prefixes : buffer = utf8 "ASOBTDIA" := kept.trans (by decide +kernel)
    rw [printed, refused (by rw [length_statusLine_observed]; decide), prefixes, length_statusLine_observed]
    rfl

/-- No machine word is the length of the line of the largest `tuple_dim`. -/
theorem vast_line_not_counted :
    ¬ bootIdentityLineLen ⟨"ACER", "", "", "", "", "", "", 0, 0xffffffffffffffff, "", ""⟩ =
      some (identityLine ⟨"ACER", "", "", "", "", "", "", 0, 0xffffffffffffffff, "", ""⟩).length := by
  intro counted
  have seeded : Seeded ⟨"ACER", "", "", "", "", "", "", 0, 0xffffffffffffffff, "", ""⟩ := .inr (by decide)
  rw [bootIdentityLineLen, (prints_identityLine seeded).lineLen_eq, Option.some.injEq] at counted
  have long := length_identityLine_ge ⟨"ACER", "", "", "", "", "", "", 0, 0xffffffffffffffff, "", ""⟩
  have dim : (0xffffffffffffffff : UInt64).toNat = 2 ^ 64 - 1 := rfl
  simp only [dim] at long
  rw [usizeMax] at counted
  omega

end Asolaria.BootLines
