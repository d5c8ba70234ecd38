import Asolaria.Surface.Framing
import Asolaria.Surface.HttpRequests
import Asolaria.Surface.HttpRoundTrip
import Asolaria.Surface.Sessions

namespace Asolaria.Surface
open Library

/-- What `handle` does with a request. -/
inductive Route
  | page
  | health
  | live
  | spawn (shell : String)
  | input (id : UInt64) (body : List UInt8)
  | kill (id : UInt64)
  | stream (id : UInt64)
  | launch
  | notFound
  deriving DecidableEq, Repr

def Request.route (request : Request) : Route :=
  match request.method, request.path with
  | "GET", "/" => .page
  | "GET", "/index.html" => .page
  | "GET", "/health" => .health
  | "GET", "/api/live" => .live
  | "POST", "/term/spawn" => .spawn (shellLabel request.body)
  | "POST", "/term/input" => .input (queryId request.query) request.body
  | "POST", "/term/kill" => .kill (queryId request.query)
  | "GET", "/term/stream" => .stream (queryId request.query)
  | "POST", "/win/launch" => .launch
  | _, _ => .notFound

/-- What the server has to say at a request: the page with its seat, the live
status, the id of a new session, what came of a launch, and the sessions that
are in the table. -/
structure Contents where
  html : String
  live : String
  id : UInt64
  launched : String
  listed : UInt64 → Bool

/-- The content type of an answer and its text. A stream is no answer. -/
def Route.reply (contents : Contents) : Route → Option (Nat × String × String)
  | page => some (200, "text/html; charset=utf-8", contents.html)
  | health => some (200, "text/plain", "ok")
  | live => some (200, "text/plain; charset=utf-8", contents.live)
  | spawn _ => some (200, "text/plain", toString contents.id)
  | input _ _ => some (200, "text/plain", "ok")
  | kill _ => some (200, "text/plain", "ok")
  | stream id => if contents.listed id then none else some (404, "text/plain", "no session")
  | launch => some (200, "text/plain", contents.launched)
  | notFound => some (404, "text/plain", "not found")

def Route.answer (contents : Contents) (route : Route) : Option (List UInt8) :=
  (route.reply contents).map fun (code, ctype, text) => writeResp code ctype (utf8 text)

/-- The first step on the table of sessions that a request leads to. -/
inductive Route.Begins (s : SessionTable) : Route → SessionEvent → SessionTable → Connection → Prop
  | spawn (shell : String) :
      Begins s (.spawn shell) (.take s.nextId) { s with nextId := s.nextId + 1 } (.inserting s.nextId shell)
  | input {id body written} : written <+: body →
      Begins s (.input id body) (.input id body written) (s.input id written) .waiting
  | kill (id : UInt64) : Begins s (.kill id) (.kill id) (s.kill id) .waiting

/-- The requests that name a session. -/
inductive SessionCall
  | input
  | kill
  | stream
  deriving DecidableEq, Repr

namespace SessionCall

def method : SessionCall → String
  | input => "POST"
  | kill => "POST"
  | stream => "GET"

def path : SessionCall → String
  | input => "/term/input"
  | kill => "/term/kill"
  | stream => "/term/stream"

def route (id : UInt64) (body : List UInt8) : SessionCall → Route
  | input => .input id body
  | kill => .kill id
  | stream => .stream id

end SessionCall

/-- A query of several parameters. -/
def queryOf (parameters : List (List Char)) : List Char := ['&'].intercalate parameters

def idParameter (text : String) : List Char := "id=".toList ++ text.toList

variable {contents : Contents} {route : Route} {answer : List UInt8} {before after : List (List Char)} {id : UInt64}

/-- Whoever takes what stands behind the first blank line of an answer has its text. -/
theorem Route.answer_text (answered : route.answer contents = some answer) :
    httpGetBody answer = (route.reply contents).map fun reply => reply.2.2 := by
  obtain ⟨⟨code, ctype, text⟩, reply, rfl⟩ := Option.map_eq_some_iff.mp answered
  have plain : ¬ blankLine <:+: ctype.toList ++ ['\r', '\n'] := by
    cases route <;> simp only [Route.reply, Option.some.injEq, Prod.mk.injEq, Option.ite_none_left_eq_some] at reply
    case stream id =>
      obtain ⟨_, _, rfl, _⟩ := reply
      decide +kernel
    all_goals
      obtain ⟨_, rfl, _⟩ := reply
      decide +kernel
  rw [reply, Option.map_some, answer_read plain, fromUtf8Lossy_utf8]

/-- The first steps of the connections are those that requests lead to. -/
theorem begins_iff {s t : SessionTable} {event : SessionEvent} {next : Connection} :
    (∃ route : Route, route.Begins s event t next) ↔ ConnectionStep s .waiting event t next := by
  constructor
  · rintro ⟨route, begins⟩
    cases begins with
    | spawn shell => exact .take shell
    | input part => exact .input part
    | kill id => exact .kill
  · intro step
    cases step with
    | take shell => exact ⟨_, .spawn shell⟩
    | input part => exact ⟨_, .input part⟩
    | kill => exact ⟨_, .kill _⟩

theorem stripPrefix_eq_none_iff {front text : List Char} : stripPrefix front text = none ↔ ¬ front <+: text := by
  rw [stripPrefix, ← List.isPrefixOf_iff_prefix]
  split
  · next starts => simp [starts]
  · next other => simp [other]

/-- The first parameter that names an id names the session. -/
theorem queryId_first (plain : ∀ parameter ∈ before ++ after, '&' ∉ parameter)
    (first : ∀ parameter ∈ before, ¬ "id=".toList <+: parameter) :
    queryId (String.ofList (queryOf (before ++ idParameter (toString id) :: after))) = id := by
  obtain ⟨plainBefore, plainAfter⟩ := List.forall_mem_append.mp plain
  have mark : '&' ∉ idParameter (toString id) := by
    rw [idParameter, List.mem_append]
    rintro (name | digits)
    · exact absurd name (by decide +kernel)
    · exact not_mem_decimal id (by decide) digits
  have whole : ∀ parameter ∈ before ++ idParameter (toString id) :: after, '&' ∉ parameter :=
    List.forall_mem_append.mpr ⟨plainBefore, List.forall_mem_cons.mpr ⟨mark, plainAfter⟩⟩
  have silent : before.filterMap (stripPrefix "id=".toList) = [] :=
    List.filterMap_eq_nil_iff.mpr fun parameter member => stripPrefix_eq_none_iff.mpr (first parameter member)
  have named : stripPrefix "id=".toList (idParameter (toString id)) = some (toString id).toList := stripPrefix_append _ _
  have value : parseWord (toString id).toList = some id.toNat := by
    rw [toList_decimal, parseWord, parseUnsigned_decimal, if_pos id.toNat_lt_size]
  have pieces : (String.ofList (queryOf (before ++ idParameter (toString id) :: after))).toList.splitOn '&' =
      before ++ idParameter (toString id) :: after := by
    rw [String.toList_ofList, queryOf, List.splitOn_intercalate _ whole (by simp)]
  rw [queryId, pieces, List.filterMap_append, silent, List.nil_append, List.filterMap_cons_some named, List.head?_cons]
  dsimp only
  rw [value, Option.getD_some, UInt64.ofNat_toNat]

theorem SessionCall.route_request (call : SessionCall) (query : String) (body : List UInt8) :
    Request.route ⟨call.method, call.path, query, body⟩ = call.route (queryId query) body := by
  cases call <;> rfl

/-- The text that answers a spawn names the new session in every later request,
whatever parameters and headers go with it. -/
theorem session_call_routed {shell : String} (answered : (Route.spawn shell).answer contents = some answer) {text : String}
    (read : httpGetBody answer = some text) (call : SessionCall) (head : RequestHead)
    (method : head.method = call.method.toList) (path : head.path = call.path.toList)
    (query : head.query = some (queryOf (before ++ idParameter text :: after)))
    (plain : ∀ parameter ∈ before ++ after, '&' ∉ parameter)
    (first : ∀ parameter ∈ before, ¬ "id=".toList <+: parameter) {memory : Nat} {sent : List UInt8}
    (room : contentLength head.headers ≤ memory) (whole : contentLength head.headers ≤ sent.length) :
    ∃ request, readRequest memory (head.bytes ++ sent) = .request request ∧
      request.route = call.route contents.id (sent.take (contentLength head.headers)) := by
  have same : toString contents.id = text := by
    rw [Route.answer_text answered] at read
    exact Option.some.inj read
  subst same
  refine ⟨head.request (sent.take (contentLength head.headers)), ?_, ?_⟩
  · rw [head.readRequest_bytes, if_neg (Nat.not_lt.mpr room), if_neg (Nat.not_lt.mpr whole)]
  · rw [RequestHead.request, method, path, query, Option.getD_some, String.ofList_toList, String.ofList_toList,
      call.route_request, queryId_first plain first]

/-- Keys for the third session, with the text that its spawn was answered. -/
theorem session_call_routed_keys : ∃ request, readRequest 65536 (keys.bytes ++ [108, 115, 10, 71]) = .request request ∧
    request.route = .input 3 [108, 115, 10] := by
  let contents : Contents := ⟨"", "", 3, "", fun _ => false⟩
  have answered : (Route.spawn "sh").answer contents = some (writeResp 200 "text/plain" (utf8 "3")) := by decide +kernel
  have read : httpGetBody (writeResp 200 "text/plain" (utf8 "3")) = some "3" := by
    rw [answer_read (by decide +kernel), fromUtf8Lossy_utf8]
  have length : contentLength keys.headers = 3 := by decide +kernel
  have query : keys.query = some (queryOf ([] ++ idParameter "3" :: [])) := by decide +kernel
  have room : contentLength keys.headers ≤ 65536 := by rw [length]; decide
  have whole : contentLength keys.headers ≤ List.length [(108 : UInt8), 115, 10, 71] := by rw [length]; decide
  obtain ⟨request, arrived, routed⟩ :=
    session_call_routed answered read .input keys rfl rfl query (by simp) (by simp) room whole
  refine ⟨request, arrived, ?_⟩
  rw [routed, length]
  rfl

end Asolaria.Surface
