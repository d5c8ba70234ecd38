import Asolaria.Library.Lossy

namespace Library

variable {α : Type*} [DecidableEq α]

/-- A text in pieces that end with the mark, but for the last one, which is
what stands behind the last mark. -/
def piecesThrough (mark : α) : List α → List (List α)
  | [] => []
  | a :: rest =>
    if a = mark then [a] :: piecesThrough mark rest
    else
      match piecesThrough mark rest with
      | [] => [[a]]
      | piece :: pieces => (a :: piece) :: pieces

section Pieces
variable {mark : α} {piece text : List α}

@[simp] theorem flatten_piecesThrough (mark : α) (text : List α) : (piecesThrough mark text).flatten = text := by
  induction text with
  | nil => rfl
  | cons a rest ih =>
    rw [piecesThrough]
    split
    · rw [List.flatten_cons, ih, List.singleton_append]
    · cases pieces : piecesThrough mark rest with
      | nil =>
        rw [pieces] at ih
        rw [← ih]
        rfl
      | cons piece others =>
        rw [pieces, List.flatten_cons] at ih
        rw [← ih]
        rfl

theorem piecesThrough_append (plain : mark ∉ piece) (text : List α) :
    piecesThrough mark (piece ++ mark :: text) = (piece ++ [mark]) :: piecesThrough mark text := by
  induction piece with
  | nil => rw [List.nil_append, piecesThrough, if_pos rfl, List.nil_append]
  | cons a piece ih =>
    obtain ⟨other, rest⟩ := not_or.mp fun member => plain (List.mem_cons.mpr member)
    rw [List.cons_append, piecesThrough, if_neg fun same => other same.symm, ih rest, List.cons_append]

/-- Pieces that end with the only mark in them are found again in the whole. -/
theorem piecesThrough_flatten {pieces : List (List α)}
    (ended : ∀ piece ∈ pieces, ∃ front, piece = front ++ [mark] ∧ mark ∉ front) :
    piecesThrough mark pieces.flatten = pieces := by
  induction pieces with
  | nil => rfl
  | cons piece pieces ih =>
    obtain ⟨⟨front, rfl, plain⟩, others⟩ := List.forall_mem_cons.mp ended
    rw [List.flatten_cons, List.append_assoc, List.singleton_append, piecesThrough_append plain, ih others]

/-- The mark can only stand at the end of a piece. -/
theorem not_mem_dropLast (member : piece ∈ piecesThrough mark text) : mark ∉ piece.dropLast := by
  induction text generalizing piece with
  | nil => cases member
  | cons a rest ih =>
    rw [piecesThrough] at member
    split at member
    · rcases List.mem_cons.mp member with rfl | later
      · exact List.not_mem_nil
      · exact ih later
    · next other =>
      cases pieces : piecesThrough mark rest with
      | nil =>
        rw [pieces] at member
        obtain rfl := List.mem_singleton.mp member
        exact List.not_mem_nil
      | cons first others =>
        rw [pieces] at member ih
        rcases List.mem_cons.mp member with rfl | later
        · cases first with
          | nil => exact List.not_mem_nil
          | cons b first =>
            rw [List.dropLast_cons_cons, List.mem_cons, not_or]
            exact ⟨fun same => other same.symm, ih List.mem_cons_self⟩
        · exact ih (List.mem_cons_of_mem _ later)

/-- A piece of a split has no mark, and nothing that the text has not. -/
theorem piece_of_splitOn (member : piece ∈ text.splitOn mark) : mark ∉ piece ∧ ∀ a ∈ piece, a ∈ text := by
  rw [List.splitOn_eq_splitOnP] at member
  induction text generalizing piece with
  | nil =>
    rw [List.splitOnP_nil] at member
    obtain rfl := List.mem_singleton.mp member
    exact ⟨List.not_mem_nil, nofun⟩
  | cons a rest ih =>
    rw [List.splitOnP_cons_eq_if_modifyHead] at member
    split at member
    · rcases List.mem_cons.mp member with rfl | later
      · exact ⟨List.not_mem_nil, nofun⟩
      · exact ⟨(ih later).1, fun b inside => List.mem_cons_of_mem _ ((ih later).2 b inside)⟩
    · next other =>
      obtain ⟨first, others, pieces⟩ := List.exists_cons_of_ne_nil (List.splitOnP_ne_nil (· == mark) rest)
      rw [pieces] at ih
      rw [pieces, List.modifyHead_cons] at member
      rcases List.mem_cons.mp member with rfl | later
      · obtain ⟨plain, inside⟩ := ih List.mem_cons_self
        have here : mark ≠ a := by
          rintro rfl
          exact other BEq.rfl
        refine ⟨?_, List.forall_mem_cons.mpr ⟨List.mem_cons_self, fun b member => List.mem_cons_of_mem _ (inside b member)⟩⟩
        rw [List.mem_cons, not_or]
        exact ⟨here, plain⟩
      · obtain ⟨plain, inside⟩ := ih (List.mem_cons_of_mem _ later)
        exact ⟨plain, fun b member => List.mem_cons_of_mem _ (inside b member)⟩

end Pieces

/-- A line without its end. -/
def chompLine (piece : List Char) : List Char :=
  if piece.getLast? = some '\n' then
    let line := piece.dropLast
    if line.getLast? = some '\r' then line.dropLast else line
  else piece

/-- `str::lines`. -/
def lines (text : List Char) : List (List Char) := (piecesThrough '\n' text).map chompLine

/-- No line has a line feed. -/
theorem line_of_lines {text line : List Char} (member : line ∈ lines text) : '\n' ∉ line := by
  obtain ⟨piece, whole, rfl⟩ := List.mem_map.mp member
  have plain := not_mem_dropLast whole
  rw [chompLine]
  split
  · dsimp only
    split
    · exact fun inside => plain ((List.dropLast_sublist _).subset inside)
    · exact plain
  · next open_ =>
    rcases List.eq_nil_or_concat piece with rfl | ⟨front, last, rfl⟩
    · exact List.not_mem_nil
    · rw [List.concat_eq_append] at plain open_ ⊢
      rw [List.dropLast_concat] at plain
      rw [List.getLast?_concat, Option.some.injEq] at open_
      rw [List.mem_append, List.mem_singleton, not_or]
      exact ⟨plain, fun feed => open_ feed.symm⟩

/-- `str::split_once`. -/
def splitOnce (mark : α) (text : List α) : Option (List α × List α) :=
  if mark ∈ text then some (text.takeWhile (· ≠ mark), (text.dropWhile (· ≠ mark)).tail) else none

/-- `str::split_whitespace`. -/
def splitWhitespace (text : List Char) : List (List Char) :=
  (text.splitOnP isWhitespace).filter fun word => !word.isEmpty

/-- A text without white space. -/
def IsWord (word : List Char) : Prop := word ≠ [] ∧ ∀ c ∈ word, isWhitespace c = false

section Words
variable {word rest : List Char} {blank : Char}

theorem splitWhitespace_word (isWord : IsWord word) (isBlank : isWhitespace blank = true) (rest : List Char) :
    splitWhitespace (word ++ blank :: rest) = word :: splitWhitespace rest := by
  rw [splitWhitespace, List.splitOnP_append_cons_of_forall_mem isWord.2 blank isBlank, List.filter_cons_of_pos]
  · rfl
  · simpa using isWord.1

end Words

end Library
