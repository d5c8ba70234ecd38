import Mathlib.Data.List.Basic

namespace Library.RustTokens

/-- A token of a source text. A number is a word of digits. -/
inductive Token
  | word (text : List Char)
  | literal (text : List Char)
  | mark (c : Char)
  deriving DecidableEq, Repr

/-- Where a scanner stands in a text. -/
inductive Mode
  | between
  | word (text : List Char)
  | literal (text : List Char)
  | escape (text : List Char)
  | slash
  | comment
  deriving DecidableEq, Repr

structure Scanner where
  mode : Mode
  tokens : List Token
  deriving DecidableEq, Repr

def isWord (c : Char) : Bool := c.isAlphanum || c == '_'

def isBlank (c : Char) : Bool := c == ' ' || c == '\n' || c == '\t' || c == '\r'

/-- The escapes of one letter. -/
def escaped : Char → Option Char
  | 'n' => some '\n'
  | 'r' => some '\r'
  | 't' => some '\t'
  | '0' => some '\x00'
  | '\\' => some '\\'
  | '"' => some '"'
  | '\x27' => some '\x27'
  | _ => none

/-- A character where no token is open. -/
def opened (c : Char) : Scanner :=
  if isBlank c then ⟨.between, []⟩
  else if isWord c then ⟨.word [c], []⟩
  else if c = '"' then ⟨.literal [], []⟩
  else if c = '/' then ⟨.slash, []⟩
  else ⟨.between, [.mark c]⟩

/-- The step from one character to the next: the mode, and the tokens that end. -/
def step : Mode → Char → Option Scanner
  | .between, c => some (opened c)
  | .word text, c =>
    if isWord c then some ⟨.word (text ++ [c]), []⟩
    else some { opened c with tokens := .word text :: (opened c).tokens }
  | .literal text, c =>
    if c = '"' then some ⟨.between, [.literal text]⟩
    else if c = '\\' then some ⟨.escape text, []⟩
    else if c = '\r' then none
    else some ⟨.literal (text ++ [c]), []⟩
  | .escape text, c => (escaped c).map fun e => ⟨.literal (text ++ [e]), []⟩
  | .slash, c =>
    if c = '/' then some ⟨.comment, []⟩ else some { opened c with tokens := .mark '/' :: (opened c).tokens }
  | .comment, c => if c = '\n' then some ⟨.between, []⟩ else some ⟨.comment, []⟩

def scan : Mode → List Char → Option Scanner
  | mode, [] => some ⟨mode, []⟩
  | mode, c :: rest =>
    match step mode c with
    | none => none
    | some s => (scan s.mode rest).map fun t => ⟨t.mode, s.tokens ++ t.tokens⟩

/-- The tokens of a whole text, which must not end inside of a literal. -/
def tokens (text : List Char) : Option (List Token) :=
  match scan .between text with
  | some ⟨.between, tokens⟩ | some ⟨.comment, tokens⟩ => some tokens
  | some ⟨.word text, tokens⟩ => some (tokens ++ [.word text])
  | some ⟨.slash, tokens⟩ => some (tokens ++ [.mark '/'])
  | _ => none

variable {mode next last : Mode} {front text rest : List Char} {seen more : List Token}

theorem scan_append (first : scan mode front = some ⟨next, seen⟩) (second : scan next rest = some ⟨last, more⟩) :
    scan mode (front ++ rest) = some ⟨last, seen ++ more⟩ := by
  induction front generalizing mode seen with
  | nil =>
    rw [scan, Option.some.injEq, Scanner.mk.injEq] at first
    obtain ⟨rfl, rfl⟩ := first
    exact second
  | cons c front ih =>
    rw [scan] at first
    rw [List.cons_append, scan]
    cases moved : step mode c with
    | none => rw [moved] at first; cases first
    | some s =>
      rw [moved] at first
      dsimp only at first ⊢
      cases behind : scan s.mode front with
      | none => rw [behind] at first; cases first
      | some t =>
        rw [behind, Option.map_some, Option.some.injEq, Scanner.mk.injEq] at first
        obtain ⟨rfl, rfl⟩ := first
        rw [ih behind, Option.map_some, List.append_assoc]

/-- The characters that stand for themselves in a literal. -/
def Plain (text : List Char) : Prop := ∀ c ∈ text, c ≠ '"' ∧ c ≠ '\\' ∧ c ≠ '\r'

instance : DecidablePred Plain := fun text => List.decidableBAll _ text

theorem scan_literal (plain : Plain text) (front : List Char) :
    scan (.literal front) (text ++ ['"']) = some ⟨.between, [.literal (front ++ text)]⟩ := by
  induction text generalizing front with
  | nil => rw [List.append_nil]; rfl
  | cons c rest ih =>
    obtain ⟨⟨quote, escape, feed⟩, others⟩ := List.forall_mem_cons.mp plain
    rw [List.cons_append, scan, step, if_neg quote, if_neg escape, if_neg feed]
    dsimp only
    rw [ih others, Option.map_some, List.nil_append, List.append_assoc, List.singleton_append]

theorem scan_word (letters : ∀ c ∈ text, isWord c = true) (front : List Char) :
    scan (.word front) text = some ⟨.word (front ++ text), []⟩ := by
  induction text generalizing front with
  | nil => rw [List.append_nil]; rfl
  | cons c rest ih =>
    obtain ⟨letter, others⟩ := List.forall_mem_cons.mp letters
    rw [scan, step, if_pos letter]
    dsimp only
    rw [ih others, Option.map_some, List.nil_append, List.append_assoc, List.singleton_append]

theorem isBlank_of_isWord {c : Char} (letter : isWord c = true) : isBlank c = false := by
  rw [Bool.eq_false_iff]
  intro blank
  simp only [isBlank, Bool.or_eq_true, beq_iff_eq] at blank
  rcases blank with ((rfl | rfl) | rfl) | rfl <;> cases letter

theorem scan_between_word (filled : text ≠ []) (letters : ∀ c ∈ text, isWord c = true) :
    scan .between text = some ⟨.word text, []⟩ := by
  obtain ⟨first, rest, rfl⟩ := List.exists_cons_of_ne_nil filled
  obtain ⟨letter, others⟩ := List.forall_mem_cons.mp letters
  have begins : opened first = ⟨.word [first], []⟩ := by
    rw [opened, isBlank_of_isWord letter, if_neg Bool.false_ne_true, if_pos letter]
  rw [scan, step, begins]
  dsimp only
  rw [scan_word others, Option.map_some, List.singleton_append, List.nil_append]

/-- A word ends in front of a character that belongs to no word. -/
theorem scan_word_end {c : Char} (other : isWord c = false) (behind : scan .between (c :: rest) = some ⟨next, seen⟩) :
    scan (.word text) (c :: rest) = some ⟨next, .word text :: seen⟩ := by
  have single : step (.word text) c = some { opened c with tokens := .word text :: (opened c).tokens } := by
    rw [step, if_neg (Bool.eq_false_iff.mp other)]
  have alone : step .between c = some (opened c) := rfl
  rw [scan, alone] at behind
  rw [scan, single]
  dsimp only at behind ⊢
  cases after : scan (opened c).mode rest with
  | none => rw [after] at behind; cases behind
  | some t =>
    rw [after, Option.map_some, Option.some.injEq, Scanner.mk.injEq] at behind
    obtain ⟨rfl, rfl⟩ := behind
    rfl

theorem tokens_eq (ends : scan .between text = some ⟨.between, seen⟩) : tokens text = some seen := by
  rw [tokens, ends]

end Library.RustTokens
