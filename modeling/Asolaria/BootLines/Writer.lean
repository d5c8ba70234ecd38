import Asolaria.Library.Checked
import Asolaria.Library.Decimal
import Asolaria.Library.Text

namespace Asolaria.BootLines
open Library

/-- A byte slice: no slice is longer than `isize::MAX` bytes. -/
structure Slice where
  bytes : List UInt8
  short : bytes.length ≤ 2 ^ 63 - 1

/-- `[0u8; n]`. -/
def Slice.zeros (n : Nat) (short : n ≤ 2 ^ 63 - 1) : Slice := ⟨List.replicate n 0, by rwa [List.length_replicate]⟩

inductive RenderError
  | bufferTooSmall (requiredLen : Nat)
  deriving DecidableEq, Repr

/-- `StatusLineWriter` and `IdentityLineWriter`, which differ in the room for
the digits of a number alone. A `none` of the pushes is a panic. -/
structure LineWriter where
  buffer : Option (List UInt8)
  required : Nat
  written : Nat
  deriving DecidableEq, Repr

/-- The loop of `push_decimal`, which fills the digits in front of the cursor
and returns the filled part. -/
def fillDigits (digits : List UInt8) (value : Nat) : Nat → Option (List UInt8)
  | 0 => if value = 0 then sliceChecked digits 0 digits.length else none
  | cursor + 1 =>
    if value = 0 then sliceChecked digits (cursor + 1) digits.length
    else do
      let digits ← setChecked digits cursor (lastDigit value)
      fillDigits digits (value / 10) cursor

/-- The arguments of the `push_*` methods. -/
inductive Push
  | str (value : String)
  | byte (value : UInt8)
  | bool (value : Bool)
  | usize (value : UInt64)

def Push.u32 (value : UInt32) : Push := .usize value.toUInt64

def Push.u16 (value : UInt16) : Push := .usize value.toUInt64

namespace LineWriter

def countOnly : LineWriter := ⟨none, 0, 0⟩

def withBuffer (buffer : List UInt8) : LineWriter := ⟨some buffer, 0, 0⟩

def finish (w : LineWriter) : Except RenderError Nat :=
  if w.required > w.written then .error (.bufferTooSmall w.required) else .ok w.required

def pushBytes (w : LineWriter) (value : List UInt8) : Option LineWriter :=
  -- the saturating sum
  let required := min (w.required + value.length) usizeMax
  match w.buffer with
  | none => some { w with required }
  | some buffer =>
    let available := buffer.length - w.written
    let toCopy := min available value.length
    if toCopy ≠ 0 then do
      let stop ← addChecked w.written toCopy
      let source ← sliceChecked value 0 toCopy
      let buffer ← copyChecked buffer w.written stop source
      return ⟨some buffer, required, stop⟩
    else some { w with required }

def pushDecimal (capacity : Nat) (w : LineWriter) (value : UInt64) : Option LineWriter :=
  if value = 0 then w.pushBytes [48]
  else do
    let digits ← fillDigits (List.replicate capacity 0) value.toNat capacity
    w.pushBytes digits

def push (capacity : Nat) (w : LineWriter) : Push → Option LineWriter
  | .str value => w.pushBytes (utf8 value)
  | .byte value => w.pushBytes [value]
  | .bool value => w.pushBytes [if value then 49 else 48]
  | .usize value => w.pushDecimal capacity value

/-- The pushes of a renderer, one after another. -/
def pushAll (capacity : Nat) (pushes : List Push) (w : LineWriter) : Option LineWriter :=
  pushes.foldlM (push capacity) w

end LineWriter

/-- The count of a line, from the pushes that print it. -/
def lineLen (inner : LineWriter → Option LineWriter) : Option Nat := do
  let writer ← inner .countOnly
  return writer.required

/-- The printing of a line: what is returned, and the buffer afterwards. -/
def renderLine (inner : LineWriter → Option LineWriter) (out : Slice) : Option (Except RenderError Nat × List UInt8) := do
  let writer ← inner (.withBuffer out.bytes)
  return (writer.finish, writer.buffer.getD out.bytes)

/-- The bytes a push stands for. -/
def Push.bytes : Push → List UInt8
  | .str value => utf8 value
  | .byte value => [value]
  | .bool value => [if value then 49 else 48]
  | .usize value => decimalBytes value.toNat

/-- The writer after a line has gone through it: it has kept what fits. -/
def LineWriter.after (old : Option (List UInt8)) (line : List UInt8) : LineWriter where
  buffer := old.map fun bytes => line.take bytes.length ++ bytes.drop line.length
  required := min line.length usizeMax
  written := match old with
    | none => 0
    | some bytes => min line.length bytes.length

/-- The part of a renderer that prints a line, from any writer on. -/
def Prints (inner : LineWriter → Option LineWriter) (line : List UInt8) : Prop :=
  ∀ old front, (∀ bytes ∈ old, bytes.length < usizeMax) → inner (.after old front) = some (.after old (front ++ line))

variable {inner : LineWriter → Option LineWriter} {line front bytes value : List UInt8}

theorem after_nil_none : LineWriter.after none [] = .countOnly := rfl

theorem after_nil_some (bytes : List UInt8) : LineWriter.after (some bytes) [] = .withBuffer bytes := by
  simp [LineWriter.after, LineWriter.withBuffer]

/-- With the buffer full already nothing changes but the count. -/
theorem pushBytes_full (full : bytes.length ≤ front.length) :
    (LineWriter.after (some bytes) front).pushBytes value = some (.after (some bytes) (front ++ value)) := by
  have nothing : min ((front.take bytes.length ++ bytes.drop front.length).length -
      min front.length bytes.length) value.length = 0 := by
    rw [List.length_append, List.length_take, List.length_drop]
    omega
  have counted : min (min front.length usizeMax + value.length) usizeMax = min (front ++ value).length usizeMax := by
    rw [List.length_append]
    omega
  have kept : (front ++ value).take bytes.length ++ bytes.drop (front ++ value).length =
      front.take bytes.length ++ bytes.drop front.length := by
    rw [List.take_append_of_le_length full, List.drop_of_length_le full, List.drop_of_length_le]
    rw [List.length_append]
    omega
  have place : min front.length bytes.length = min (front ++ value).length bytes.length := by
    rw [List.length_append]
    omega
  simp only [LineWriter.pushBytes, LineWriter.after, Option.map_some, nothing, counted, kept, ← place]
  rfl

/-- What has been copied after one more piece, and what is left of the old bytes. -/
theorem kept_append (room : front.length ≤ bytes.length) :
    front ++ (value.take (min (bytes.length - front.length) value.length) ++
      bytes.drop (front.length + min (bytes.length - front.length) value.length)) =
    (front ++ value).take bytes.length ++ bytes.drop (front ++ value).length := by
  rw [List.take_append, List.take_of_length_le room, List.length_append, List.append_assoc]
  by_cases fits : value.length ≤ bytes.length - front.length
  · rw [Nat.min_eq_right fits, List.take_length, List.take_of_length_le fits]
  · have beyond : bytes.length ≤ front.length + value.length := by omega
    rw [Nat.min_eq_left (by omega), Nat.add_sub_cancel' room, List.drop_length, List.drop_of_length_le beyond]

/-- With room left the piece is copied as far as it fits. -/
theorem pushBytes_room (room : front.length < bytes.length) (word : bytes.length < usizeMax) :
    (LineWriter.after (some bytes) front).pushBytes value = some (.after (some bytes) (front ++ value)) := by
  have start : LineWriter.after (some bytes) front =
      ⟨some (front ++ bytes.drop front.length), front.length, front.length⟩ := by
    rw [LineWriter.after, Option.map_some, List.take_of_length_le (by omega)]
    simp only [Nat.min_eq_left (show front.length ≤ usizeMax by omega), Nat.min_eq_left (Nat.le_of_lt room)]
  have available : (front ++ bytes.drop front.length).length - front.length = bytes.length - front.length := by
    rw [List.length_append, List.length_drop]
    omega
  have finish : LineWriter.after (some bytes) (front ++ value) =
      ⟨some (front ++ (value.take (min (bytes.length - front.length) value.length) ++
        bytes.drop (front.length + min (bytes.length - front.length) value.length))),
        min (front.length + value.length) usizeMax,
        front.length + min (bytes.length - front.length) value.length⟩ := by
    rw [kept_append (Nat.le_of_lt room), LineWriter.after, Option.map_some, List.length_append]
    simp only [LineWriter.mk.injEq, true_and]
    omega
  rw [start, finish, LineWriter.pushBytes]
  simp only [available]
  generalize copied : min (bytes.length - front.length) value.length = k
  split
  · have cut : bytes.drop front.length = (bytes.drop front.length).take k ++ bytes.drop (front.length + k) := by
      rw [← List.drop_drop, List.take_append_drop]
    have length : ((bytes.drop front.length).take k).length = (value.take k).length := by
      rw [List.length_take, List.length_take, List.length_drop]
      omega
    have stop : front.length + k = front.length + (value.take k).length := by
      rw [List.length_take]
      omega
    rw [addChecked_of_le (show front.length + k ≤ bytes.length by omega) (Nat.le_of_lt word),
      sliceChecked_zero (show k ≤ value.length by omega)]
    rw [cut]
    simp only [Option.bind_eq_bind, Option.bind_some]
    rw [copyChecked_append rfl length stop]
    rfl
  · next nothing =>
    have none : k = 0 := not_not.mp nothing
    subst none
    rw [List.take_zero, List.nil_append, Nat.add_zero]

/-- One piece through the writer. -/
theorem pushBytes_after {old : Option (List UInt8)} (word : ∀ bytes ∈ old, bytes.length < usizeMax) :
    (LineWriter.after old front).pushBytes value = some (.after old (front ++ value)) := by
  cases old with
  | none =>
    have counted : min (min front.length usizeMax + value.length) usizeMax = min (front ++ value).length usizeMax := by
      rw [List.length_append]
      omega
    simp only [LineWriter.pushBytes, LineWriter.after, Option.map_none, counted]
  | some bytes =>
    by_cases room : front.length < bytes.length
    · exact pushBytes_room room (word bytes rfl)
    · exact pushBytes_full (Nat.le_of_not_lt room)

/-- The digits fill the end of their array. -/
theorem fillDigits_eq {value cursor : Nat} {filled rest : List UInt8} (length : filled.length = cursor)
    (small : value < 10 ^ cursor) : fillDigits (filled ++ rest) value cursor = some (digitsBefore value ++ rest) := by
  induction cursor generalizing value filled rest with
  | zero =>
    have zero : value = 0 := by simpa using small
    have empty : filled = [] := List.length_eq_zero_iff.mp length
    rw [fillDigits, if_pos zero, empty, List.nil_append, sliceChecked_length (Nat.zero_le _), zero]
    rfl
  | succ cursor ih =>
    rw [fillDigits]
    split
    · next zero =>
      rw [sliceChecked_length (by rw [List.length_append]; omega), ← length, List.drop_left, zero]
      rfl
    · next some =>
      obtain ⟨front, last, rfl⟩ : ∃ front last, filled = front ++ [last] :=
        ⟨filled.dropLast, filled.getLast (by rintro rfl; cases length), (List.dropLast_append_getLast _).symm⟩
      have shorter : front.length = cursor := by simpa using length
      have written : setChecked (front ++ last :: rest) cursor (lastDigit value) =
          Option.some (front ++ lastDigit value :: rest) := setChecked_append shorter.symm
      have divided : value / 10 < 10 ^ cursor := by
        rw [Nat.pow_succ] at small
        omega
      rw [List.append_assoc, List.singleton_append, written, digitsBefore_step some, List.append_assoc]
      exact ih shorter divided

theorem pushDecimal_after {old : Option (List UInt8)} (word : ∀ bytes ∈ old, bytes.length < usizeMax) {capacity : Nat}
    (room : 20 ≤ capacity) (value : UInt64) :
    (LineWriter.after old front).pushDecimal capacity value = some (.after old (front ++ decimalBytes value.toNat)) := by
  rw [LineWriter.pushDecimal]
  split
  · next zero =>
    subst zero
    rw [pushBytes_after word]
    rfl
  · next positive =>
    have some : value.toNat ≠ 0 := fun zero => positive (UInt64.toNat_inj.mp zero)
    have small : value.toNat < 10 ^ capacity :=
      calc value.toNat < 2 ^ 64 := value.toNat_lt
        _ < 10 ^ 20 := by decide
        _ ≤ 10 ^ capacity := Nat.pow_le_pow_right (by decide) room
    have digits := @fillDigits_eq value.toNat capacity (List.replicate capacity 0) [] List.length_replicate small
    rw [List.append_nil, List.append_nil, digitsBefore, if_neg some] at digits
    rw [digits]
    exact pushBytes_after word

/-- One push through the writer. -/
theorem push_after {old : Option (List UInt8)} (word : ∀ bytes ∈ old, bytes.length < usizeMax) {capacity : Nat}
    (room : 20 ≤ capacity) (p : Push) :
    (LineWriter.after old front).push capacity p = some (.after old (front ++ p.bytes)) := by
  cases p with
  | str value => exact pushBytes_after word
  | byte value => exact pushBytes_after word
  | bool value => exact pushBytes_after word
  | usize value => exact pushDecimal_after word room value

namespace Prints

theorem nil : Prints some [] := fun old front _ => by rw [List.append_nil]

theorem push {capacity : Nat} (room : 20 ≤ capacity) (p : Push) : Prints (fun w => w.push capacity p) p.bytes :=
  fun _ _ word => push_after word room p

/-- What is printed by two parts in turn. -/
theorem append {first second : LineWriter → Option LineWriter} {left right : List UInt8}
    (printsLeft : Prints first left)
    (printsRight : Prints second right) : Prints (fun w => first w >>= second) (left ++ right) := by
  intro old front word
  show (first (.after old front) >>= second) = _
  rw [printsLeft old front word, ← List.append_assoc]
  exact printsRight old (front ++ left) word

/-- A loop prints what its turns print. -/
theorem foldlM {ι : Type} {turn : LineWriter → ι → Option LineWriter} {text : ι → List UInt8} {items : List ι}
    (each : ∀ i ∈ items, Prints (fun w => turn w i) (text i)) :
    Prints (fun w => items.foldlM turn w) (items.flatMap text) := by
  induction items with
  | nil => exact nil
  | cons i items ih =>
    have here := each i List.mem_cons_self
    have behind := ih fun j member => each j (List.mem_cons_of_mem i member)
    exact here.append behind

theorem pushAll {capacity : Nat} (room : 20 ≤ capacity) (pushes : List Push) :
    Prints (LineWriter.pushAll capacity pushes) (pushes.flatMap Push.bytes) :=
  foldlM fun p _ => push room p

/-- The count of a line stops at the largest word. -/
theorem lineLen_eq (prints : Prints inner line) : lineLen inner = some (min line.length usizeMax) := by
  have counted := prints none [] fun bytes member => by cases member
  rw [after_nil_none] at counted
  rw [lineLen, counted]
  rfl

/-- A line is rendered whole where it fits, and otherwise its first bytes are. -/
theorem renderLine_eq (prints : Prints inner line) (out : Slice) :
    renderLine inner out = some (if line.length ≤ out.bytes.length then .ok line.length
        else .error (.bufferTooSmall (min line.length usizeMax)),
      line.take out.bytes.length ++ out.bytes.drop line.length) := by
  have word : out.bytes.length < usizeMax := Nat.lt_of_le_of_lt out.short (by decide)
  have rendered := prints (some out.bytes) [] fun bytes member => by
    cases member
    exact word
  rw [after_nil_some, List.nil_append] at rendered
  have finished : (LineWriter.after (some out.bytes) line).finish = if line.length ≤ out.bytes.length then
      .ok line.length else .error (.bufferTooSmall (min line.length usizeMax)) := by
    show (if min line.length usizeMax > min line.length out.bytes.length then _ else _) = _
    by_cases fits : line.length ≤ out.bytes.length
    · rw [if_neg (by omega), if_pos fits, LineWriter.after, Nat.min_eq_left (by omega)]
    · rw [if_pos (by omega), if_neg fits]
      rfl
  rw [renderLine, rendered]
  exact congrArg some (Prod.ext finished rfl)

end Prints

end Asolaria.BootLines
