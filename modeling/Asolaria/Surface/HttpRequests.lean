import Asolaria.Library.Guard
import Asolaria.Library.Utf8
import Asolaria.Surface.Http

namespace Asolaria.Surface
open Library

section Lines
variable {line : List Char}

theorem lineText_utf8 (text : String) : lineText (utf8 text) = some text.toList := by
  have valid : text.toByteArray.IsValidUTF8 := text.isValidUTF8
  have bytes : (⟨(utf8 text).toArray⟩ : ByteArray) = text.toByteArray := rfl
  rw [lineText, bytes, String.fromUTF8?, dif_pos valid, Option.map_some]
  rfl

/-- A line break is no byte of another character. -/
theorem lineFeed_not_mem (whole : '\n' ∉ line) : 10 ∉ utf8 (String.ofList line) := by
  rw [utf8_eq_flatMap, String.toList_ofList, List.mem_flatMap]
  rintro ⟨c, member, byte⟩
  rcases Nat.lt_or_ge c.toNat 128 with ascii | wide
  · rw [utf8EncodeChar_ascii ascii, List.mem_singleton] at byte
    have code : c.toNat = 10 := by rw [← toNat_ofNat_ascii ascii, ← byte]; rfl
    have feed : c = '\n' := Char.toNat_inj.mp code
    exact whole (feed ▸ member)
  · obtain ⟨lead, rest, encoded, _, high⟩ := utf8EncodeChar_wide wide
    rw [encoded] at byte
    exact absurd (high 10 byte) (by decide)

/-- The bytes of a line that `read_line` takes at once. -/
def lineBytes (line : List Char) : List UInt8 := utf8 (String.ofList (line ++ ['\r', '\n']))

theorem piecesThrough_line (whole : '\n' ∉ line) (rest : List UInt8) :
    piecesThrough 10 (lineBytes line ++ rest) = lineBytes line :: piecesThrough 10 rest := by
  have cut : lineBytes line = utf8 (String.ofList (line ++ ['\r'])) ++ [10] := by
    rw [lineBytes, utf8_eq_flatMap, utf8_eq_flatMap, String.toList_ofList, String.toList_ofList, List.flatMap_append,
      List.flatMap_append, List.append_assoc]
    rfl
  have plain : '\n' ∉ line ++ ['\r'] := by simp [whole]
  rw [cut, List.append_assoc, List.singleton_append, piecesThrough_append (lineFeed_not_mem plain)]

theorem lineText_line : lineText (lineBytes line) = some (line ++ ['\r', '\n']) := by
  rw [lineBytes, lineText_utf8, String.toList_ofList]

theorem trimEnd_line : trimEnd (line ++ ['\r', '\n']) = trimEnd line := by
  have cut : line ++ ['\r', '\n'] = line ++ ['\r'] ++ ['\n'] := by rw [List.append_assoc]; rfl
  rw [trimEnd, cut, List.rdropWhile_concat_pos _ _ _ (by decide), List.rdropWhile_concat_pos _ _ _ (by decide), trimEnd]

end Lines

section Headers
variable {headers : List (List Char)}

/-- The content length that a header line names. -/
def announced (header : List Char) : Option Nat :=
  (stripPrefix "content-length:".toList ((trimEnd header).map Char.toLower)).map fun v => (parseWord (trimBoth v)).getD 0

/-- The last header line that names a content length is the one that counts. -/
def contentLength (headers : List (List Char)) : Nat := ((headers.filterMap announced).getLast?).getD 0

def IsHeader (header : List Char) : Prop := '\n' ∉ header ∧ trimEnd header ≠ []

instance : DecidablePred IsHeader := fun header => inferInstanceAs (Decidable ('\n' ∉ header ∧ trimEnd header ≠ []))

theorem readHeaders_lines (n : Nat) (plain : ∀ header ∈ headers, IsHeader header) (behind : List (List UInt8)) :
    readHeaders n (headers.map lineBytes ++ lineBytes [] :: behind) =
      some (((headers.filterMap announced).getLast?).getD n, behind) := by
  induction headers generalizing n with
  | nil =>
    rw [List.map_nil, List.nil_append, readHeaders, lineText_line]
    rfl
  | cons header rest ih =>
    obtain ⟨⟨_, filled⟩, others⟩ := List.forall_mem_cons.mp plain
    have text : (trimEnd header).isEmpty = false := List.isEmpty_eq_false_iff.mpr filled
    rw [List.map_cons, List.cons_append, readHeaders, lineText_line]
    dsimp only
    rw [trimEnd_line, text, if_neg Bool.false_ne_true]
    cases value : stripPrefix "content-length:".toList ((trimEnd header).map Char.toLower) with
    | none =>
      have silent : announced header = none := by rw [announced, value]; rfl
      rw [List.filterMap_cons_none silent]
      exact ih n others
    | some v =>
      have named : announced header = some ((parseWord (trimBoth v)).getD 0) := by rw [announced, value]; rfl
      rw [List.filterMap_cons_some named, List.getLast?_cons, Option.getD_some]
      exact ih _ others

theorem contentLength_last {before after : List (List Char)} {header : List Char} {n : Nat}
    (named : announced header = some n) (last : ∀ other ∈ after, announced other = none) :
    contentLength (before ++ header :: after) = n := by
  have silent : after.filterMap announced = [] := List.filterMap_eq_nil_iff.mpr last
  rw [contentLength, List.filterMap_append, List.filterMap_cons_some named, silent, List.getLast?_concat,
    Option.getD_some]

/-- The header line with which a client names the length of its body. -/
def contentLengthHeader (n : Nat) : List Char := "Content-Length: ".toList ++ Nat.toDigits 10 n

theorem digit_plain {c : Char} (digit : c.isDigit = true) : isWhitespace c = false ∧ c.toLower = c := by
  obtain ⟨above, below⟩ := Char.isDigit_iff_toNat.mp digit
  change 48 ≤ c.toNat at above
  change c.toNat ≤ 57 at below
  constructor
  · simp only [isWhitespace, Bool.or_eq_false_iff, Bool.and_eq_false_iff, decide_eq_false_iff_not, beq_eq_false_iff_ne]
    omega
  · have noLetter : ¬ (c.val ≥ 'A'.val ∧ c.val ≤ 'Z'.val) := by
      rintro ⟨upper, _⟩
      have code : 65 ≤ c.toNat := UInt32.le_iff_toNat_le.mp upper
      omega
    exact dif_neg noLetter

theorem trimEnd_digits {digits : List Char} (plain : ∀ c ∈ digits, c.isDigit = true) (filled : digits ≠ [])
    (front : List Char) : trimEnd (front ++ digits) = front ++ digits := by
  obtain ⟨begin, last, rfl⟩ := List.eq_nil_or_concat digits |>.resolve_left filled
  have ends : last.isDigit = true := plain last (by simp)
  rw [trimEnd, List.concat_eq_append, ← List.append_assoc, List.rdropWhile_concat_neg]
  rw [(digit_plain ends).1]
  exact Bool.false_ne_true

theorem trimBoth_digits {digits : List Char} (plain : ∀ c ∈ digits, c.isDigit = true) (filled : digits ≠ []) :
    trimBoth (' ' :: digits) = digits := by
  have same : digits.dropWhile isWhitespace = digits := by
    obtain ⟨first, rest, rfl⟩ := List.exists_cons_of_ne_nil filled
    refine List.dropWhile_cons_of_neg ?_
    rw [(digit_plain (plain first List.mem_cons_self)).1]
    exact Bool.false_ne_true
  rw [trimBoth, List.dropWhile_cons_of_pos (by decide), same]
  exact trimEnd_digits plain filled []

theorem stripPrefix_append (front text : List Char) : stripPrefix front (front ++ text) = some text := by
  have starts : front.isPrefixOf (front ++ text) = true := List.isPrefixOf_iff_prefix.mpr (List.prefix_append _ _)
  rw [stripPrefix, if_pos starts, List.drop_left]

theorem announced_contentLengthHeader {n : Nat} (small : n < UInt64.size) :
    announced (contentLengthHeader n) = some n := by
  have plain : ∀ c ∈ Nat.toDigits 10 n, c.isDigit = true := fun c member =>
    Nat.isDigit_of_mem_toDigits (by decide) (by decide) member
  have filled : Nat.toDigits 10 n ≠ [] := Nat.toDigits_ne_nil
  have lower : (Nat.toDigits 10 n).map Char.toLower = Nat.toDigits 10 n :=
    (List.map_congr_left fun c member => (digit_plain (plain c member)).2).trans (List.map_id' _)
  have name : "Content-Length: ".toList.map Char.toLower = "content-length:".toList ++ [' '] := by decide +kernel
  have value : parseWord (trimBoth (' ' :: Nat.toDigits 10 n)) = some n := by
    rw [trimBoth_digits plain filled, parseWord, parseUnsigned_decimal, if_pos small]
  have text : (contentLengthHeader n).map Char.toLower = "content-length:".toList ++ (' ' :: Nat.toDigits 10 n) :=
    List.map_append.trans ((congrArg₂ (· ++ ·) name lower).trans (List.append_assoc _ _ _))
  have kept : trimEnd (contentLengthHeader n) = contentLengthHeader n := trimEnd_digits plain filled _
  rw [announced, kept, text, stripPrefix_append, Option.map_some, value, Option.getD_some]

end Headers

/-- The head of a request: the words of its first line and the lines behind it. -/
structure RequestHead where
  method : List Char
  path : List Char
  query : Option (List Char)
  headers : List (List Char)
  methodWord : IsWord method
  targetWord : IsWord (path ++ (query.map ('?' :: ·)).getD [])
  pathPlain : '?' ∉ path
  headersPlain : ∀ header ∈ headers, IsHeader header

namespace RequestHead
variable (head : RequestHead)

def target : List Char := head.path ++ (head.query.map ('?' :: ·)).getD []

def firstLine : List Char := head.method ++ ' ' :: (head.target ++ " HTTP/1.1".toList)

def bytes : List UInt8 := lineBytes head.firstLine ++ (head.headers.flatMap lineBytes ++ lineBytes [])

/-- The request with this head and the given body. -/
def request (body : List UInt8) : Request :=
  ⟨String.ofList head.method, String.ofList head.path, String.ofList (head.query.getD []), body⟩

theorem firstLine_plain : '\n' ∉ head.firstLine := by
  have word : ∀ {text : List Char}, IsWord text → '\n' ∉ text := fun isWord member =>
    absurd (isWord.2 '\n' member) (by decide)
  have version : '\n' ∉ " HTTP/1.1".toList := by decide +kernel
  rw [firstLine, List.mem_append, List.mem_cons, List.mem_append]
  rintro (inMethod | blank | inTarget | inVersion)
  · exact word head.methodWord inMethod
  · exact absurd blank (by decide)
  · exact word head.targetWord inTarget
  · exact version inVersion

theorem words_firstLine : ∃ rest, splitWhitespace (head.firstLine ++ ['\r', '\n']) = head.method :: head.target :: rest := by
  have version : " HTTP/1.1".toList = ' ' :: "HTTP/1.1".toList := by decide +kernel
  refine ⟨splitWhitespace ("HTTP/1.1".toList ++ ['\r', '\n']), ?_⟩
  rw [firstLine, version, List.append_assoc, List.cons_append, splitWhitespace_word head.methodWord (by decide),
    List.append_assoc, List.cons_append, target, splitWhitespace_word head.targetWord (by decide)]

theorem ofTarget_target (body : List UInt8) : Request.ofTarget head.method head.target body = head.request body := by
  have stays : ∀ c ∈ head.path, decide (c ≠ '?') = true := by
    intro c member
    rw [decide_eq_true_eq]
    rintro rfl
    exact head.pathPlain member
  rw [Request.ofTarget, splitOnce, request, target]
  cases head.query with
  | none =>
    rw [Option.map_none, Option.getD_none, List.append_nil, if_neg head.pathPlain]
  | some query =>
    have mark : '?' ∈ head.path ++ '?' :: query := by simp
    have left : (head.path ++ '?' :: query).takeWhile (· ≠ '?') = head.path := by
      rw [List.takeWhile_append_of_pos stays, List.takeWhile_cons_of_neg (by decide), List.append_nil]
    have right : (head.path ++ '?' :: query).dropWhile (· ≠ '?') = '?' :: query := by
      rw [List.dropWhile_append_of_pos stays, List.dropWhile_cons_of_neg (by decide)]
    rw [Option.map_some, Option.getD_some, if_pos mark, left, right]
    rfl

/-- What comes of a request for which any bytes are sent behind its head. -/
theorem readRequest_bytes (memory : Nat) (sent : List UInt8) : readRequest memory (head.bytes ++ sent) =
    if memory < contentLength head.headers then .aborted
    else if sent.length < contentLength head.headers then .failed
    else .request (head.request (sent.take (contentLength head.headers))) := by
  obtain ⟨rest, words⟩ := head.words_firstLine
  have whole : ∀ headers : List (List Char), (∀ header ∈ headers, IsHeader header) →
      piecesThrough 10 (headers.flatMap lineBytes ++ lineBytes [] ++ sent) =
        headers.map lineBytes ++ lineBytes [] :: piecesThrough 10 sent := by
    intro headers plain
    induction headers with
    | nil => exact piecesThrough_line (List.not_mem_nil) sent
    | cons header headers ih =>
      obtain ⟨here, others⟩ := List.forall_mem_cons.mp plain
      rw [List.flatMap_cons, List.append_assoc, List.append_assoc, piecesThrough_line here.1, ← List.append_assoc, ih others]
      rfl
  rw [readRequest, bytes, List.append_assoc, piecesThrough_line head.firstLine_plain, whole head.headers head.headersPlain]
  dsimp only
  rw [lineText_line]
  dsimp only
  rw [readHeaders_lines 0 head.headersPlain, words]
  dsimp only
  rw [flatten_piecesThrough, List.headD_cons, List.getD_cons_succ, List.getD_cons_zero, ofTarget_target]
  rfl

end RequestHead

/-- What comes of a request: the first bytes behind the head are its body, as
many as its last content length header announces, whatever header lines stand
around that one and whatever is sent behind the body. -/
theorem request_arrives (head : RequestHead) (memory : Nat) (sent : List UInt8) :
    (readRequest memory (head.bytes ++ sent) =
      if memory < contentLength head.headers then .aborted
      else if sent.length < contentLength head.headers then .failed
      else .request (head.request (sent.take (contentLength head.headers)))) ∧
    (∀ before header after n, head.headers = before ++ header :: after → announced header = some n →
      (∀ other ∈ after, announced other = none) → contentLength head.headers = n) ∧
    ∀ n < UInt64.size, announced (contentLengthHeader n) = some n := by
  refine ⟨head.readRequest_bytes memory sent, fun before header after n named told last => ?_,
    fun n small => announced_contentLengthHeader small⟩
  rw [named]
  exact contentLength_last told last

/-- Keys for a session, from a client that names the length of the body last. -/
def keys : RequestHead where
  method := "POST".toList
  path := "/term/input".toList
  query := some "id=3".toList
  headers := ["content-LENGTH: 70000".toList, contentLengthHeader 3, "Host: 127.0.0.1".toList]
  methodWord := ⟨by decide +kernel, forall_mem_of_all (by decide +kernel)⟩
  targetWord := ⟨by decide +kernel, forall_mem_of_all (by decide +kernel)⟩
  pathPlain := by decide +kernel
  headersPlain := by decide +kernel

theorem request_arrives_keys : readRequest 65536 (keys.bytes ++ [108, 115, 10, 71]) =
    .request ⟨"POST", "/term/input", "id=3", [108, 115, 10]⟩ := by
  obtain ⟨arrives, last, spelled⟩ := request_arrives keys 65536 [108, 115, 10, 71]
  have length := last ["content-LENGTH: 70000".toList] _ ["Host: 127.0.0.1".toList] 3 rfl (spelled 3 (by decide))
    (by decide +kernel)
  rw [arrives, length]
  rfl

end Asolaria.Surface
