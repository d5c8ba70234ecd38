import Asolaria.Library.Lossy

namespace Library.EventStream

/-- What a listener is given. An event without a type is a message. -/
structure Event where
  type : String
  data : String
deriving DecidableEq, Repr

/-- What is held between two characters of a stream: whether the last of them
was a carriage return, the line that has not ended and the buffers of the event
that has not been dispatched. -/
structure Reader where
  afterCr : Bool
  line : List Char
  type : List Char
  data : List Char
deriving DecidableEq, Repr

def Reader.fresh : Reader := ⟨false, [], [], []⟩

/-- A value without the space that may stand in front of it. -/
def stripSpace (value : List Char) : List Char := if value.head? = some ' ' then value.tail else value

def fieldName (line : List Char) : List Char := line.takeWhile (· ≠ ':')

def fieldValue (line : List Char) : List Char := stripSpace ((line.dropWhile (· ≠ ':')).drop 1)

/-- A line that is not empty. A comment is a field without a name, and the
fields `id` and `retry` leave both buffers as they are. -/
def Reader.field (r : Reader) : Reader :=
  if fieldName r.line = "event".toList then { r with line := [], type := fieldValue r.line }
  else if fieldName r.line = "data".toList then { r with line := [], data := r.data ++ fieldValue r.line ++ ['\n'] }
  else { r with line := [] }

/-- An empty line. Without a line of data there is no event, and the line feed
behind the last of them is not a part of it. -/
def Reader.dispatch (r : Reader) : Reader × List Event :=
  ({ r with type := [], data := [] },
    if r.data = [] then []
    else [⟨if r.type = [] then "message" else String.ofList r.type, String.ofList r.data.dropLast⟩])

def Reader.endLine (r : Reader) : Reader × List Event := if r.line = [] then r.dispatch else (r.field, [])

/-- A line ends at a line feed, a carriage return, or both of them. -/
def Reader.step (r : Reader) (c : Char) : Reader × List Event :=
  if c = '\n' then if r.afterCr then ({ r with afterCr := false }, []) else r.endLine
  else if c = '\r' then ({ r.endLine.1 with afterCr := true }, r.endLine.2)
  else ({ r with afterCr := false, line := r.line ++ [c] }, [])

def Reader.feed (r : Reader) : List Char → Reader × List Event
  | [] => (r, [])
  | c :: rest => (((r.step c).1.feed rest).1, (r.step c).2 ++ ((r.step c).1.feed rest).2)

/-- A text without the byte order mark that may stand in front of it. -/
def stripMark (text : List Char) : List Char := if text.head? = some '\uFEFF' then text.tail else text

/-- The events of a stream of bytes. An event that is not ended by an empty
line is discarded. -/
def events (bytes : List UInt8) : List Event := (Reader.fresh.feed (stripMark (decodeFrom none bytes))).2

/-- A text that ends no line. -/
def Unbroken (text : List Char) : Prop := ∀ c ∈ text, c ≠ '\n' ∧ c ≠ '\r'

instance (text : List Char) : Decidable (Unbroken text) :=
  decidable_of_iff (text.all fun c => decide (c ≠ '\n' ∧ c ≠ '\r')) (by simp only [List.all_eq_true, decide_eq_true_eq, Unbroken])

section Feed
variable {r : Reader} {text rest : List Char}

theorem feed_append (r : Reader) (text rest : List Char) :
    r.feed (text ++ rest) = (((r.feed text).1.feed rest).1, (r.feed text).2 ++ ((r.feed text).1.feed rest).2) := by
  induction text generalizing r with
  | nil => rfl
  | cons c text ih => rw [List.cons_append, Reader.feed, ih, Reader.feed, List.append_assoc]

theorem feed_unbroken (r : Reader) (unbroken : Unbroken text) (inside : r.afterCr = false) :
    r.feed text = ({ r with line := r.line ++ text }, []) := by
  induction text generalizing r with
  | nil => rw [Reader.feed, List.append_nil]
  | cons c text ih =>
    have plain := unbroken c List.mem_cons_self
    have behind : Unbroken text := fun d member => unbroken d (List.mem_cons_of_mem _ member)
    have step : r.step c = ({ r with line := r.line ++ [c] }, []) := by
      rw [Reader.step, if_neg plain.1, if_neg plain.2, inside]
    rw [Reader.feed, step]
    dsimp only
    rw [ih { r with line := r.line ++ [c] } behind inside, List.append_assoc]
    rfl

theorem feed_singleton (r : Reader) (c : Char) : r.feed [c] = r.step c := by
  rw [Reader.feed, Reader.feed, List.append_nil]

theorem endLine_afterCr (r : Reader) : r.endLine.1.afterCr = r.afterCr := by
  unfold Reader.endLine Reader.field
  split
  · rfl
  · split
    · rfl
    · split <;> rfl

theorem endLine_line (r : Reader) : r.endLine.1.line = [] := by
  unfold Reader.endLine Reader.field
  split
  · assumption
  · split
    · rfl
    · split <;> rfl

theorem step_break {brk : Char} (r : Reader) (inside : r.afterCr = false) (ends : brk = '\n' ∨ brk = '\r') :
    r.step brk = ({ r.endLine.1 with afterCr := brk = '\r' }, r.endLine.2) := by
  rcases ends with rfl | rfl
  · have same : ({ r.endLine.1 with afterCr := false } : Reader) = r.endLine.1 := by
      rw [← inside, ← endLine_afterCr]
    rw [Reader.step, if_pos rfl, inside, if_neg Bool.false_ne_true, decide_eq_false (by decide), same]
  · rw [Reader.step, if_neg (by decide), if_pos rfl, decide_eq_true rfl]

theorem passes_name {name : List Char} (plain : ':' ∉ name) : ∀ c ∈ name, decide (c ≠ ':') = true := by
  intro c member
  exact decide_eq_true fun colon => plain (colon ▸ member)

/-- A field with a colon and a space behind its name. -/
theorem fieldName_eq {name : List Char} (value : List Char) (plain : ':' ∉ name) :
    fieldName (name ++ ':' :: ' ' :: value) = name := by
  rw [fieldName, List.takeWhile_append_of_pos (passes_name plain), List.takeWhile_cons_of_neg (by decide), List.append_nil]

theorem fieldValue_eq {name : List Char} (value : List Char) (plain : ':' ∉ name) :
    fieldValue (name ++ ':' :: ' ' :: value) = value := by
  rw [fieldValue, List.dropWhile_append_of_pos (passes_name plain), List.dropWhile_cons_of_neg (by decide)]
  rfl

/-- A reader at the begin of a line. -/
def Reader.AtLine (r : Reader) : Prop := r.afterCr = false ∧ r.line = []

/-- A line that is not empty, from its begin. -/
theorem feed_line {brk : Char} (begun : r.AtLine) (unbroken : Unbroken text) (filled : text ≠ [])
    (ends : brk = '\n' ∨ brk = '\r') :
    r.feed (text ++ [brk]) = ({ ({ r with line := text } : Reader).field with afterCr := brk = '\r' }, []) := by
  have line := feed_unbroken r unbroken begun.1
  rw [begun.2, List.nil_append] at line
  have ended := step_break { r with line := text } begun.1 ends
  rw [Reader.endLine, if_neg filled] at ended
  rw [feed_append, line, feed_singleton]
  dsimp only
  rw [ended]
  rfl

section Fields
variable {brk : Char} (begun : r.AtLine) (unbroken : Unbroken text) (ends : brk = '\n' ∨ brk = '\r')
include begun unbroken ends

/-- The line of a field with a colon and a space behind its name. -/
theorem feed_field {name : List Char} (plain : ':' ∉ name) (whole : Unbroken name) :
    r.feed (name ++ ':' :: ' ' :: text ++ [brk]) =
      ({ (if name = "event".toList then { r with type := text }
          else if name = "data".toList then { r with data := r.data ++ text ++ ['\n'] } else r : Reader) with
        afterCr := brk = '\r' }, []) := by
  have line : Unbroken (name ++ ':' :: ' ' :: text) := by
    rw [Unbroken, List.forall_mem_append, List.forall_mem_cons, List.forall_mem_cons]
    exact ⟨whole, by decide, by decide, unbroken⟩
  rw [feed_line begun line (by simp) ends, Reader.field]
  dsimp only
  rw [fieldName_eq text plain, fieldValue_eq text plain]
  obtain ⟨_, _, _, _⟩ := r
  obtain ⟨_, rfl⟩ := begun
  split
  · rfl
  · split <;> rfl

theorem feed_type : r.feed ("event: ".toList ++ text ++ [brk]) =
    ({ r with afterCr := brk = '\r', type := text }, []) := by
  refine (feed_field begun unbroken ends (show ':' ∉ "event".toList by decide) (by decide)).trans ?_
  rw [if_pos rfl]

theorem feed_data : r.feed ("data: ".toList ++ text ++ [brk]) =
    ({ r with afterCr := brk = '\r', data := r.data ++ text ++ ['\n'] }, []) := by
  refine (feed_field begun unbroken ends (show ':' ∉ "data".toList by decide) (by decide)).trans ?_
  rw [if_neg (by decide), if_pos rfl]

end Fields

/-- An empty line. -/
theorem feed_empty (begun : r.AtLine) : r.feed ['\n'] = r.dispatch := by
  rw [feed_singleton, Reader.step, if_pos rfl, begun.1, if_neg Bool.false_ne_true, Reader.endLine, if_pos begun.2]

theorem dispatch_filled (filled : r.data ≠ []) : r.dispatch = ({ r with type := [], data := [] },
    [⟨if r.type = [] then "message" else String.ofList r.type, String.ofList r.data.dropLast⟩]) := by
  rw [Reader.dispatch, if_neg filled]

/-- Data and an empty line end an event of the type that was read. -/
theorem feed_event (type : List Char) (unbroken : Unbroken text) :
    ({ Reader.fresh with type } : Reader).feed ("data: ".toList ++ text ++ ['\n', '\n']) =
      (.fresh, [⟨if type = [] then "message" else String.ofList type, String.ofList text⟩]) := by
  have split : "data: ".toList ++ text ++ ['\n', '\n'] = "data: ".toList ++ text ++ ['\n'] ++ ['\n'] := by simp
  have data := feed_data (r := { Reader.fresh with type }) ⟨rfl, rfl⟩ unbroken (.inl rfl)
  rw [split, feed_append, data]
  dsimp only
  rw [feed_empty ⟨rfl, rfl⟩, dispatch_filled (by simp)]
  dsimp only [Reader.fresh]
  rw [List.nil_append, List.dropLast_concat]
  rfl

theorem feed_message (unbroken : Unbroken text) : Reader.fresh.feed ("data: ".toList ++ text ++ ['\n', '\n']) =
    (.fresh, [⟨"message", String.ofList text⟩]) := feed_event [] unbroken

theorem feed_typed {type : List Char} (filled : type ≠ []) (plain : Unbroken type) (unbroken : Unbroken text) :
    Reader.fresh.feed ("event: ".toList ++ type ++ ['\n'] ++ ("data: ".toList ++ text ++ ['\n', '\n'])) =
      (.fresh, [⟨String.ofList type, String.ofList text⟩]) := by
  have typed := feed_event type unbroken
  rw [if_neg filled] at typed
  rw [feed_append, feed_type ⟨rfl, rfl⟩ plain (.inl rfl)]
  exact typed

end Feed

/-- Data has come, and there is no more of it than that, with the line that has
not ended. -/
structure Reader.Holds (r : Reader) (bound : Nat) : Prop where
  filled : r.data ≠ []
  small : r.data.length + r.line.length ≤ bound
  begun : r.afterCr = true → r.line = []

/-- The next event is shorter than that, or still to come. -/
def Short (bound : Nat) (out : Reader × List Event) : Prop :=
  (∃ event others, out.2 = event :: others ∧ event.data.toList.length < bound) ∨ out.2 = [] ∧ out.1.Holds bound

section Lengths
variable {r : Reader} {bound : Nat}

theorem length_field (line : List Char) : (fieldName line).length + (fieldValue line).length ≤ line.length := by
  have whole := congrArg List.length (List.takeWhile_append_dropWhile (p := fun c => decide (c ≠ ':')) (l := line))
  have stripped (value : List Char) : (stripSpace value).length ≤ value.length := by
    unfold stripSpace
    split
    · exact (List.tail_sublist value).length_le
    · exact Nat.le_refl _
  have value := stripped ((line.dropWhile (· ≠ ':')).drop 1)
  rw [List.length_append] at whole
  rw [List.length_drop] at value
  unfold fieldName fieldValue
  omega

theorem Reader.Holds.mono {more : Nat} (holds : r.Holds bound) (le : bound ≤ more) : r.Holds more :=
  ⟨holds.filled, Nat.le_trans holds.small le, holds.begun⟩

theorem Short.mono {out : Reader × List Event} {more : Nat} (short : Short bound out) (le : bound ≤ more) :
    Short more out := by
  rcases short with ⟨event, others, next, less⟩ | ⟨none, holds⟩
  · exact .inl ⟨event, others, next, Nat.lt_of_lt_of_le less le⟩
  · exact .inr ⟨none, holds.mono le⟩

theorem field_holds (holds : r.Holds bound) : r.field.Holds bound := by
  obtain ⟨filled, small, begun⟩ := holds
  unfold Reader.field
  split
  · exact ⟨filled, Nat.le_trans (Nat.le_add_right _ _) small, fun _ => rfl⟩
  · split
    · next name =>
      have parts := length_field r.line
      rw [name] at parts
      change 4 + _ ≤ _ at parts
      refine ⟨by simp, ?_, fun _ => rfl⟩
      rw [List.length_append, List.length_append, List.length_singleton, List.length_nil]
      omega
    · exact ⟨filled, Nat.le_trans (Nat.le_add_right _ _) small, fun _ => rfl⟩

/-- What is dispatched is the data without its last line feed. -/
theorem dispatch_short (holds : r.Holds bound) :
    ∃ event others, r.dispatch.2 = event :: others ∧ event.data.toList.length < bound := by
  rw [dispatch_filled holds.filled]
  refine ⟨_, _, rfl, ?_⟩
  have positive := List.length_pos_of_ne_nil holds.filled
  have small := holds.small
  rw [String.toList_ofList, List.length_dropLast]
  omega

theorem endLine_short (holds : r.Holds bound) : Short bound r.endLine := by
  unfold Reader.endLine
  split
  · exact .inl (dispatch_short holds)
  · exact .inr ⟨rfl, field_holds holds⟩

theorem step_lf_short (holds : r.Holds bound) : Short bound (r.step '\n') := by
  rw [Reader.step, if_pos rfl]
  split
  · exact .inr ⟨rfl, holds.filled, holds.small, nofun⟩
  · exact endLine_short holds

theorem step_short (holds : r.Holds bound) (c : Char) : Short (bound + 1) (r.step c) := by
  by_cases lf : c = '\n'
  · subst lf
    exact (step_lf_short holds).mono (Nat.le_succ _)
  · rw [Reader.step, if_neg lf]
    split
    · rcases endLine_short holds with event | ⟨none, held⟩
      · exact (Short.mono (.inl event) (Nat.le_succ _))
      · exact .inr ⟨none, held.filled, Nat.le_succ_of_le held.small, fun _ => endLine_line r⟩
    · refine .inr ⟨rfl, holds.filled, ?_, nofun⟩
      have small := holds.small
      dsimp only
      rw [List.length_append, List.length_singleton]
      omega

/-- Data grows by no more than what is read. -/
theorem feed_short (holds : r.Holds bound) (text : List Char) : Short (bound + text.length) (r.feed text) := by
  induction text generalizing r bound with
  | nil => exact .inr ⟨rfl, holds⟩
  | cons c text ih =>
    have count : bound + (c :: text).length = bound + 1 + text.length := by
      rw [List.length_cons]
      omega
    rw [count, Reader.feed]
    rcases step_short holds c with ⟨event, others, next, less⟩ | ⟨none, held⟩
    · exact .inl ⟨event, others ++ _, by rw [next]; rfl, by omega⟩
    · rw [none, List.nil_append]
      exact ih held

theorem step_lf_atLine (holds : r.Holds bound) : (r.step '\n').1.AtLine := by
  rw [Reader.step, if_pos rfl]
  split
  · next after => exact ⟨rfl, holds.begun after⟩
  · next inside => exact ⟨(endLine_afterCr r).trans (Bool.eq_false_iff.mpr inside), endLine_line r⟩

/-- Two line feeds end the event. -/
theorem feed_two_lf (holds : r.Holds bound) :
    ∃ event others, (r.feed ['\n', '\n']).2 = event :: others ∧ event.data.toList.length < bound := by
  have begun := step_lf_atLine holds
  rw [Reader.feed]
  rcases step_lf_short holds with ⟨event, others, next, less⟩ | ⟨none, held⟩
  · exact ⟨event, others ++ _, by rw [next]; rfl, less⟩
  · rw [none, List.nil_append, feed_empty begun]
    exact dispatch_short held

end Lengths

theorem exists_break {text : List Char} (broken : ¬ Unbroken text) :
    ∃ before brk rest, text = before ++ brk :: rest ∧ Unbroken before ∧ (brk = '\n' ∨ brk = '\r') := by
  induction text with
  | nil => exact absurd nofun broken
  | cons c text ih =>
    by_cases ends : c = '\n' ∨ c = '\r'
    · exact ⟨[], c, text, rfl, nofun, ends⟩
    · have plain : c ≠ '\n' ∧ c ≠ '\r' := not_or.mp ends
      obtain ⟨before, brk, rest, rfl, unbroken, found⟩ := ih fun unbroken => broken (List.forall_mem_cons.mpr ⟨plain, unbroken⟩)
      exact ⟨c :: before, brk, rest, rfl, List.forall_mem_cons.mpr ⟨plain, unbroken⟩, found⟩

/-- A value that breaks its line does not come through: the next event has
less data. -/
theorem feed_broken {r : Reader} {text : List Char} (begun : r.AtLine) (empty : r.data = []) (broken : ¬ Unbroken text) :
    ∃ event others, (r.feed ("data: ".toList ++ text ++ ['\n', '\n'])).2 = event :: others ∧
      event.data.toList.length < text.length := by
  obtain ⟨before, brk, rest, rfl, unbroken, ends⟩ := exists_break broken
  have split : "data: ".toList ++ (before ++ brk :: rest) ++ ['\n', '\n'] =
      "data: ".toList ++ before ++ [brk] ++ (rest ++ ['\n', '\n']) := by simp
  have count : (before ++ brk :: rest).length = before.length + 1 + rest.length := by
    rw [List.length_append, List.length_cons]
    omega
  have holds : ({ r with afterCr := brk = '\r', data := r.data ++ before ++ ['\n'] } : Reader).Holds (before.length + 1) :=
    ⟨by simp, by simp [empty, begun.2], fun _ => begun.2⟩
  rw [split, feed_append, feed_data begun unbroken ends, List.nil_append, feed_append, count]
  rcases feed_short holds rest with ⟨event, others, next, less⟩ | ⟨none, held⟩
  · exact ⟨event, others ++ _, by rw [next]; rfl, less⟩
  · rw [none, List.nil_append]
    exact feed_two_lf held

end Library.EventStream
