import Asolaria.Library.Guard
import Asolaria.Surface.Http

namespace Asolaria.Surface
open Library

section Answer
variable {code : Nat} {ctype : String} {body : List UInt8}

def statusText (code : Nat) : String :=
  if code = 200 then "200 OK" else if code = 404 then "404 Not Found" else "500 Internal Server Error"

/-- The mark between the head and the body. -/
def blankLine : List Char := ['\r', '\n', '\r', '\n']

/-- The head of an answer in front of its blank line. -/
def headText (code : Nat) (ctype : String) (length : Nat) : List Char :=
  ("HTTP/1.1 " ++ statusText code ++ "\r\nContent-Type:").toList ++ ' ' :: (ctype.toList ++ ['\r', '\n'] ++
    'C' :: ("ontent-Length: ".toList ++ Nat.toDigits 10 length ++
      "\r\nCache-Control: no-store\r\nConnection: close".toList))

theorem fromUtf8Lossy_writeResp : (fromUtf8Lossy (writeResp code ctype body)).toList =
    headText code ctype body.length ++ blankLine ++ (fromUtf8Lossy body).toList := by
  have digits : (toString body.length).toList = Nat.toDigits 10 body.length := Nat.toList_repr
  have type : "\r\nContent-Type: ".toList = "\r\nContent-Type:".toList ++ [' '] := by decide +kernel
  have length : "\r\nContent-Length: ".toList = ['\r', '\n'] ++ 'C' :: "ontent-Length: ".toList := by decide +kernel
  have close : "\r\nCache-Control: no-store\r\nConnection: close\r\n\r\n".toList =
      "\r\nCache-Control: no-store\r\nConnection: close".toList ++ blankLine := by decide +kernel
  rw [writeResp, fromUtf8Lossy, decodeFrom_utf8_append, fromUtf8Lossy, String.toList_ofList, String.toList_ofList,
    headText, statusText]
  simp only [String.toList_append, digits, type, length, close, List.append_assoc, List.cons_append, List.nil_append]

theorem status_plain (code : Nat) :
    ¬ blankLine <:+: ("HTTP/1.1 " ++ statusText code ++ "\r\nContent-Type:").toList := by
  unfold statusText
  split
  · decide +kernel
  · split <;> decide +kernel

/-- The head has a blank line of its own only where its content type ends a
line. -/
theorem blankLine_in_head : blankLine <:+: headText code ctype body.length ++ blankLine.dropLast ↔
    blankLine <:+: ctype.toList ++ ['\r', '\n'] := by
  have label : ∀ c ∈ "ontent-Length: ".toList ++ Nat.toDigits 10 body.length, c ∉ blankLine := by
    have name : ∀ c ∈ "ontent-Length: ".toList, c ∉ blankLine := forall_mem_of_all (by decide +kernel)
    refine List.forall_mem_append.mpr ⟨name, fun c member inside => ?_⟩
    have digit : c.isDigit = true := Nat.isDigit_of_mem_toDigits (by decide) (by decide) member
    simp only [blankLine, List.mem_cons, List.not_mem_nil, or_false] at inside
    rcases inside with rfl | rfl | rfl | rfl <;> cases digit
  have behind : ¬ blankLine <:+: "\r\nCache-Control: no-store\r\nConnection: close".toList ++ blankLine.dropLast := by
    decide +kernel
  have whole : headText code ctype body.length ++ blankLine.dropLast =
      ("HTTP/1.1 " ++ statusText code ++ "\r\nContent-Type:").toList ++ ' ' :: ((ctype.toList ++ ['\r', '\n']) ++
        'C' :: (("ontent-Length: ".toList ++ Nat.toDigits 10 body.length) ++
          ("\r\nCache-Control: no-store\r\nConnection: close".toList ++ blankLine.dropLast))) := by
    simp only [headText, List.append_assoc, List.cons_append]
  rw [whole]
  constructor
  · intro occurs
    rcases infix_beside occurs (by decide) with status | rest
    · exact absurd status (status_plain code)
    · rcases infix_beside rest (by decide) with type | rest
      · exact type
      · exact absurd ((infix_append_avoid (by decide) label).mp rest) behind
  · intro occurs
    exact (occurs.trans (List.prefix_append _ _).isInfix).trans
      ((List.suffix_cons _ _).isInfix.trans (List.suffix_append _ _).isInfix)

theorem isEmpty_writeResp : (writeResp code ctype body).isEmpty = false := by
  have filled : (fromUtf8Lossy (writeResp code ctype body)).toList.length ≠ 0 := by
    rw [fromUtf8Lossy_writeResp, headText]
    simp
  cases answer : writeResp code ctype body with
  | nil => exact absurd (by rw [answer]; rfl) filled
  | cons => rfl

theorem httpGetBody_writeResp : httpGetBody (writeResp code ctype body) =
    some (httpResponseBody (fromUtf8Lossy (writeResp code ctype body))) := by
  rw [httpGetBody, isEmpty_writeResp, if_neg Bool.false_ne_true]

theorem answer_read (plain : ¬ blankLine <:+: ctype.toList ++ ['\r', '\n']) :
    httpGetBody (writeResp code ctype body) = some (fromUtf8Lossy body) := by
  have mark : "\r\n\r\n".toList = blankLine := by decide +kernel
  have behind : (headText code ctype body.length ++ blankLine).length = (headText code ctype body.length).length + 4 :=
    List.length_append
  have first : ¬ blankLine <:+: headText code ctype body.length ++ blankLine.dropLast := plain ∘ blankLine_in_head.mp
  rw [httpGetBody_writeResp, httpResponseBody, mark, fromUtf8Lossy_writeResp, find_append (by decide) first]
  dsimp only
  rw [← behind, List.drop_left, String.ofList_toList]

/-- What is read behind the head of an answer is the text of its body exactly
where the content type makes no blank line. -/
theorem answer_read_iff : httpGetBody (writeResp code ctype body) = some (fromUtf8Lossy body) ↔
    ¬ blankLine <:+: ctype.toList ++ ['\r', '\n'] := by
  have mark : "\r\n\r\n".toList = blankLine := by decide +kernel
  refine ⟨fun read broken => ?_, answer_read⟩
  rw [httpGetBody_writeResp, httpResponseBody, mark, fromUtf8Lossy_writeResp] at read
  obtain ⟨i, inside, found⟩ := find_earlier (by decide) (blankLine_in_head.mpr broken) (fromUtf8Lossy body).toList
  rw [found] at read
  have text := congrArg (fun text : Option String => (text.getD "").toList.length) read
  simp only [Option.getD_some, String.toList_ofList, List.length_drop, List.length_append, blankLine,
    List.length_cons, List.length_nil] at text
  omega

end Answer

end Asolaria.Surface
