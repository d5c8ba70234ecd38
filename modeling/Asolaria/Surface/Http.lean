import Asolaria.Library.Find
import Asolaria.Library.Lines
import Asolaria.Library.Numerals

namespace Asolaria.Surface
open Library

/-- What `handle` takes from the bytes of a connection. -/
structure Request where
  method : String
  path : String
  query : String
  body : List UInt8
  deriving DecidableEq, Repr

/-- What comes of reading a request: nothing was sent, an error of a read ended
the call, the body could not be allocated and the process was aborted, or there
is a request. -/
inductive Incoming
  | silent
  | failed
  | aborted
  | request (request : Request)
  deriving DecidableEq, Repr

/-- A line as `read_line` appends it to a string. -/
def lineText (line : List UInt8) : Option (List Char) := (String.fromUTF8? ⟨line.toArray⟩).map String.toList

def trimEnd (text : List Char) : List Char := text.rdropWhile isWhitespace

def trimBoth (text : List Char) : List Char := (text.dropWhile isWhitespace).rdropWhile isWhitespace

/-- `str::strip_prefix`. -/
def stripPrefix (front text : List Char) : Option (List Char) :=
  if front.isPrefixOf text then some (text.drop front.length) else none

/-- `parse::<usize>` and `parse::<u64>`. -/
def parseWord (text : List Char) : Option Nat := parseUnsigned UInt64.size text

/-- The loop over the header lines: the content length and the lines behind the
blank one. -/
def readHeaders (contentLength : Nat) : List (List UInt8) → Option (Nat × List (List UInt8))
  | [] => some (contentLength, [])
  | line :: rest =>
    match lineText line with
    | none => none
    | some text =>
      let t := trimEnd text
      if t.isEmpty then some (contentLength, rest)
      else
        match stripPrefix "content-length:".toList (t.map Char.toLower) with
        | some v => readHeaders ((parseWord (trimBoth v)).getD 0) rest
        | none => readHeaders contentLength rest

def Request.ofTarget (method target : List Char) (body : List UInt8) : Request :=
  match splitOnce '?' target with
  | some (p, q) => ⟨String.ofList method, String.ofList p, String.ofList q, body⟩
  | none => ⟨String.ofList method, String.ofList target, "", body⟩

/-- The beginning of `handle`, for all bytes that a client sends before it
closes its side. `memory` is the largest buffer that can be allocated. -/
def readRequest (memory : Nat) (bytes : List UInt8) : Incoming :=
  match piecesThrough 10 bytes with
  | [] => .silent
  | line :: rest =>
    match lineText line with
    | none => .failed
    | some reqLine =>
      let parts := splitWhitespace reqLine
      match readHeaders 0 rest with
      | none => .failed
      | some (contentLength, behind) =>
        if memory < contentLength then .aborted
        else if behind.flatten.length < contentLength then .failed
        else
          .request (.ofTarget (parts.headD []) (parts.getD 1 ['/']) (behind.flatten.take contentLength))

/-- `write_resp`. -/
def writeResp (code : Nat) (ctype : String) (body : List UInt8) : List UInt8 :=
  let status := if code = 200 then "200 OK" else if code = 404 then "404 Not Found" else "500 Internal Server Error"
  utf8 ("HTTP/1.1 " ++ status ++ "\r\nContent-Type: " ++ ctype ++ "\r\nContent-Length: " ++ toString body.length ++
    "\r\nCache-Control: no-store\r\nConnection: close\r\n\r\n") ++ body

/-- The request that `http_get` sends. -/
def getRequest (host path : String) : List UInt8 :=
  utf8 ("GET " ++ path ++ " HTTP/1.1\r\nHost: " ++ host ++ "\r\nConnection: close\r\n\r\n")

def httpResponseBody (resp : String) : String :=
  match find "\r\n\r\n".toList resp.toList with
  | some i => String.ofList (resp.toList.drop (i + 4))
  | none => resp

/-- `http_get`, with the bytes that were read of the answer. -/
def httpGetBody (buf : List UInt8) : Option String :=
  if buf.isEmpty then none else some (httpResponseBody (fromUtf8Lossy buf))

def queryId (query : String) : UInt64 :=
  match ((query.toList.splitOn '&').filterMap (stripPrefix "id=".toList)).head? with
  | some v => UInt64.ofNat ((parseWord v).getD 0)
  | none => 0

end Asolaria.Surface
