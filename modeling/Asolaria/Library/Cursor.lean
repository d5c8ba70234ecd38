import Asolaria.Library.Checked

namespace Library

variable {α ι : Type}

/-- A buffer and the index where it is written next. -/
structure Cursor (α : Type) where
  buf : List α
  i : Nat

/-- A program that writes at the cursor. It stops where it leaves the buffer. -/
abbrev Writing (α : Type) := StateT (Cursor α) Option

/-- `buf[i] = value; i += 1`. -/
def putAt (value : α) : Writing α Unit := fun c => do
  let buf ← setChecked c.buf c.i value
  return ((), ⟨buf, c.i + 1⟩)

/-- The values of a slice, one cell after another. -/
def putAll (values : List α) : Writing α Unit := values.forM putAt

/-- `i += inner(&mut buf[i..])`. -/
def onTail (inner : Writing α Unit) : Writing α Unit := fun c => do
  let tail ← sliceChecked c.buf c.i c.buf.length
  let (_, c') ← inner ⟨tail, 0⟩
  return ((), ⟨c.buf.take c.i ++ c'.buf, c.i + c'.i⟩)

/-- The part of a fresh buffer that a program has filled. -/
def printed (size : Nat) (blank : α) (program : Writing α Unit) : Option (List α) := do
  let (_, c) ← program ⟨List.replicate size blank, 0⟩
  sliceChecked c.buf 0 c.i

/-- From any cursor with room the program writes the text, and nothing else. -/
def Writes (program : Writing α Unit) (text : List α) : Prop :=
  ∀ front old rest, old.length = text.length →
    program ⟨front ++ (old ++ rest), front.length⟩ = some ((), ⟨front ++ (text ++ rest), front.length + text.length⟩)

namespace Writes

variable {program first second inner : Writing α Unit} {text left right : List α}

theorem nothing : Writes (pure () : Writing α Unit) [] := by
  intro front old rest length
  rw [List.length_eq_zero_iff.mp length]
  rfl

theorem one (value : α) : Writes (putAt value) [value] := by
  intro front old rest length
  obtain ⟨cell, rfl⟩ := List.length_eq_one_iff.mp length
  have written : setChecked (front ++ ([cell] ++ rest)) front.length value = some (front ++ value :: rest) :=
    setChecked_append rfl
  rw [putAt, written]
  rfl

theorem seq (writesFirst : Writes first left) (writesSecond : Writes second right) :
    Writes (first >>= fun _ => second) (left ++ right) := by
  intro front old rest length
  rw [List.length_append] at length
  have cut : old = old.take left.length ++ old.drop left.length := (List.take_append_drop _ _).symm
  have room : (old.take left.length).length = left.length := by
    rw [List.length_take]
    omega
  have behind : (old.drop left.length).length = right.length := by
    rw [List.length_drop]
    omega
  have ran := writesFirst front (old.take left.length) (old.drop left.length ++ rest) room
  have next := writesSecond (front ++ left) (old.drop left.length) rest behind
  rw [List.length_append] at next
  rw [← List.append_assoc (old.take left.length), ← cut, ← List.append_assoc front left] at ran
  show (first ⟨front ++ (old ++ rest), front.length⟩ >>= fun result => second result.2) = _
  rw [ran]
  show second _ = _
  rw [next, List.append_assoc, List.append_assoc, List.length_append, Nat.add_assoc]

/-- A loop writes what its turns write. -/
theorem forM {turn : ι → Writing α Unit} {turnText : ι → List α} {items : List ι}
    (each : ∀ item ∈ items, Writes (turn item) (turnText item)) :
    Writes (items.forM turn) (items.flatMap turnText) := by
  induction items with
  | nil => exact nothing
  | cons item items ih =>
    have here := each item List.mem_cons_self
    have behind := ih fun other member => each other (List.mem_cons_of_mem item member)
    exact here.seq behind

theorem all (values : List α) : Writes (putAll values) values := by
  have turns := @forM α α putAt (fun value => [value]) values fun value _ => one value
  rwa [List.flatMap_singleton'] at turns

theorem ite {condition : Prop} [Decidable condition] (yes : Writes first left) (no : Writes second right) :
    Writes (if condition then first else second) (if condition then left else right) := by
  split
  · exact yes
  · exact no

/-- The rest of a buffer is written as a buffer of its own. -/
theorem onTail (writes : Writes inner text) : Writes (onTail inner) text := by
  intro front old rest length
  have tail : sliceChecked (front ++ (old ++ rest)) front.length (front ++ (old ++ rest)).length =
      some (old ++ rest) := by
    rw [sliceChecked_length (by rw [List.length_append]; omega), List.drop_left]
  have ran := writes [] old rest length
  rw [List.nil_append, List.nil_append, List.length_nil, Nat.zero_add] at ran
  simp only [Library.onTail, tail, Option.bind_eq_bind, Option.bind_some, ran, List.take_left]
  rfl

/-- The index of the last write is the length of the text. -/
theorem run_eq (writes : Writes program text) {buf : List α} (room : text.length ≤ buf.length) :
    program ⟨buf, 0⟩ = some ((), ⟨text ++ buf.drop text.length, text.length⟩) := by
  have taken : (buf.take text.length).length = text.length := by
    rw [List.length_take]
    omega
  have ran := writes [] (buf.take text.length) (buf.drop text.length) taken
  rw [List.nil_append, List.nil_append, List.take_append_drop, List.length_nil, Nat.zero_add] at ran
  exact ran

/-- A text that fits the buffer is printed whole. -/
theorem printed_eq (writes : Writes program text) {size : Nat} (blank : α) (fits : text.length ≤ size) :
    printed size blank program = some text := by
  have room : text.length ≤ (List.replicate size blank).length := by
    rw [List.length_replicate]
    exact fits
  rw [printed, writes.run_eq room]
  show sliceChecked (text ++ _) 0 text.length = some text
  rw [sliceChecked_zero (by rw [List.length_append]; omega), List.take_left]

end Writes

end Library
