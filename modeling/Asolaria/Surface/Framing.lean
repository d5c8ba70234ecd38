import Asolaria.Library.EventStream
import Asolaria.Surface.Base64
import Asolaria.Surface.StreamRun

namespace Asolaria.Surface
open Library EventStream

/-- The label that `/term/spawn` takes from the body of its request. -/
def shellLabel (body : List UInt8) : String := trim (fromUtf8Lossy body)

/-- `spawn_session`, with what came of starting the shell. The session is in
the table in either case, and is not streamed yet. -/
def spawnSession (shell : String) (spawned : Except String Unit) : StreamState where
  label := shell
  out :=
    match spawned with
    | .ok () => []
    | .error e => utf8 ("[asi-os] could not spawn '" ++ shell ++ "': " ++ e ++ "\r\n")
  listed := true
  offset := 0
  idleTicks := 0
  written := []
  place := .opening

/-- What `stream_session` writes for a frame. -/
def Frame.text : Frame → String
  | label text => "event: label\ndata: " ++ text ++ "\n\n"
  | data chunk => "data: " ++ base64 chunk ++ "\n\n"
  | keepalive => ": keepalive\n\n"
  | done => "event: end\ndata: end\n\n"

/-- The bytes behind the head. -/
def frameBytes (frames : List Frame) : List UInt8 := frames.flatMap fun frame => utf8 frame.text

/-- The chunks of the output that were written, in their order. -/
def writtenChunks (frames : List Frame) : List (List UInt8) :=
  frames.filterMap fun
    | .data chunk => some chunk
    | _ => none

/-- The listener is given the label, the text of every chunk and the end where
it was written, and nothing else. -/
def Delivered (label : String) (frames : List Frame) : Prop :=
  ∃ shown : List String,
    events (frameBytes frames) = ⟨"label", label⟩ :: shown.map (⟨"message", ·⟩) ++
      (if Frame.done ∈ frames then [⟨"end", "end"⟩] else []) ∧
    shown.map (fun text => Base64.decode text.toList) = (writtenChunks frames).map some

/-- What may stand between the label and the end. -/
def Frame.Inner (frame : Frame) : Prop := frame = .keepalive ∨ ∃ chunk, frame = .data chunk

/-- The events of a frame whose label breaks no line. -/
def Frame.events : Frame → List Event
  | label text => [⟨"label", text⟩]
  | data chunk => [⟨"message", base64 chunk⟩]
  | keepalive => []
  | done => [⟨"end", "end"⟩]

section Reading

theorem base64_unbroken (chunk : List UInt8) : Unbroken (base64 chunk).toList := by
  obtain ⟨digits, inAlphabet, text⟩ := padded_base64 chunk
  have plain : ∀ c ∈ Base64.alphabet, c ≠ '\n' ∧ c ≠ '\r' := forall_mem_of_all (by decide)
  rw [text, Unbroken, List.forall_mem_append]
  refine ⟨fun c member => plain c (inAlphabet c member), ?_⟩
  intro c member
  rw [List.eq_of_mem_replicate member]
  decide

theorem toList_label (text : String) : (Frame.label text).text.toList =
    "event: ".toList ++ "label".toList ++ ['\n'] ++ ("data: ".toList ++ text.toList ++ ['\n', '\n']) := by
  unfold Frame.text
  simp

theorem toList_data (chunk : List UInt8) : (Frame.data chunk).text.toList =
    "data: ".toList ++ (base64 chunk).toList ++ ['\n', '\n'] := by
  unfold Frame.text
  simp

theorem feed_frame (frame : Frame) (whole : ∀ text, frame = .label text → Unbroken text.toList) :
    Reader.fresh.feed frame.text.toList = (.fresh, frame.events) := by
  cases frame with
  | label text =>
    have filled : "label".toList ≠ [] := by decide
    have plain : Unbroken "label".toList := by decide
    rw [toList_label, feed_typed filled plain (whole text rfl), String.ofList_toList, String.ofList_toList, Frame.events]
  | data chunk => rw [toList_data, feed_message (base64_unbroken chunk), String.ofList_toList, Frame.events]
  | keepalive => decide +kernel
  | done => decide +kernel

/-- The frames behind the label, one after the other. -/
theorem feed_frames {frames : List Frame} (whole : ∀ text, .label text ∈ frames → Unbroken text.toList) :
    Reader.fresh.feed (frames.flatMap (·.text.toList)) = (.fresh, frames.flatMap Frame.events) := by
  induction frames with
  | nil => rfl
  | cons frame frames ih =>
    have first := feed_frame frame fun text same => whole text (same ▸ List.mem_cons_self)
    have others := ih fun text member => whole text (List.mem_cons_of_mem _ member)
    rw [List.flatMap_cons, feed_append, first]
    dsimp only
    rw [others, List.flatMap_cons]

theorem decode_frameBytes (frames : List Frame) :
    decodeFrom none (frameBytes frames) = frames.flatMap (·.text.toList) := by
  induction frames with
  | nil => rfl
  | cons frame frames ih =>
    rw [frameBytes, List.flatMap_cons, decodeFrom_utf8_append]
    exact congrArg (frame.text.toList ++ ·) ih

/-- Nothing is stripped in front of the label. -/
theorem events_frameBytes (label : String) (frames : List Frame) :
    events (frameBytes (.label label :: frames)) =
      (Reader.fresh.feed ((Frame.label label).text.toList ++ frames.flatMap (·.text.toList))).2 := by
  have front : ((Frame.label label).text.toList ++ frames.flatMap (·.text.toList)).head? = some 'e' := by
    rw [toList_label]
    simp
  rw [events, decode_frameBytes, List.flatMap_cons, stripMark, if_neg (by rw [front]; decide)]

theorem events_broken {label : String} (frames : List Frame) (broken : ¬ Unbroken label.toList) :
    ∃ event others, events (frameBytes (.label label :: frames)) = event :: others ∧
      event.data.toList.length < label.toList.length := by
  have typed := feed_type (r := .fresh) ⟨rfl, rfl⟩ (show Unbroken "label".toList by decide) (.inl rfl)
  have begun : ({ Reader.fresh with afterCr := '\n' = '\r', type := "label".toList } : Reader).AtLine := ⟨by decide, rfl⟩
  obtain ⟨event, others, next, less⟩ := feed_broken begun rfl broken
  rw [events_frameBytes, toList_label, feed_append, feed_append, typed]
  exact ⟨event, others ++ _, by rw [List.nil_append, next]; rfl, less⟩

end Reading

/-- The label, frames that may stand between it and the end, and possibly the
end. -/
def Opened (label : String) (frames : List Frame) : Prop :=
  ∃ inner ending, (∀ frame ∈ inner, frame.Inner) ∧ (ending = [] ∨ ending = [Frame.done]) ∧
    frames = .label label :: (inner ++ ending)

section Listening
variable {label : String} {inner ending : List Frame}

theorem events_inner (only : ∀ frame ∈ inner, frame.Inner) :
    inner.flatMap Frame.events = (writtenChunks inner).map fun chunk => ⟨"message", base64 chunk⟩ := by
  induction inner with
  | nil => rfl
  | cons frame inner ih =>
    obtain ⟨first, others⟩ := List.forall_mem_cons.mp only
    rw [List.flatMap_cons, ih others]
    rcases first with rfl | ⟨chunk, rfl⟩
    · rfl
    · rfl

theorem writtenChunks_opened (ends : ending = [] ∨ ending = [Frame.done]) :
    writtenChunks (.label label :: (inner ++ ending)) = writtenChunks inner := by
  have none : writtenChunks ending = [] := by rcases ends with rfl | rfl <;> rfl
  calc writtenChunks (.label label :: (inner ++ ending))
      = writtenChunks inner ++ writtenChunks ending := List.filterMap_append
    _ = writtenChunks inner := by rw [none, List.append_nil]

theorem events_ending (label : String) (only : ∀ frame ∈ inner, frame.Inner) (ends : ending = [] ∨ ending = [Frame.done]) :
    ending.flatMap Frame.events =
      if Frame.done ∈ Frame.label label :: (inner ++ ending) then [⟨"end", "end"⟩] else [] := by
  rcases ends with rfl | rfl
  · rw [if_neg]
    · rfl
    · intro member
      rw [List.append_nil, List.mem_cons] at member
      rcases member with same | inside
      · cases same
      · rcases only _ inside with same | ⟨chunk, same⟩
        · cases same
        · cases same
  · rw [if_pos (by simp)]
    rfl

theorem unbroken_frames (unbroken : Unbroken label.toList) (only : ∀ frame ∈ inner, frame.Inner)
    (ends : ending = [] ∨ ending = [Frame.done]) (text : String)
    (member : .label text ∈ Frame.label label :: (inner ++ ending)) : Unbroken text.toList := by
  rcases List.mem_cons.mp member with same | behind
  · cases same
    exact unbroken
  · rcases List.mem_append.mp behind with inside | last
    · rcases only _ inside with same | ⟨chunk, same⟩
      · cases same
      · cases same
    · rcases ends with rfl | rfl
      · cases last
      · cases List.mem_singleton.mp last

/-- A label that breaks no line leaves every frame whole. -/
theorem delivered_of_unbroken (unbroken : Unbroken label.toList) (only : ∀ frame ∈ inner, frame.Inner)
    (ends : ending = [] ∨ ending = [Frame.done]) : Delivered label (.label label :: (inner ++ ending)) := by
  have fed := feed_frames (unbroken_frames unbroken only ends)
  rw [List.flatMap_cons] at fed
  refine ⟨(writtenChunks inner).map base64, ?_, ?_⟩
  · rw [events_frameBytes, fed, List.flatMap_cons, List.flatMap_append, events_inner only,
      events_ending label only ends, List.map_map]
    rfl
  · rw [writtenChunks_opened ends, List.map_map]
    exact List.map_congr_left fun chunk _ => decode_base64 chunk

theorem not_delivered_of_broken (frames : List Frame) (broken : ¬ Unbroken label.toList) :
    ¬ Delivered label (.label label :: frames) := by
  rintro ⟨shown, all, _⟩
  obtain ⟨event, others, next, less⟩ := events_broken frames broken
  rw [next, List.cons_append, List.cons.injEq] at all
  obtain ⟨rfl, _⟩ := all
  exact Nat.lt_irrefl _ less

theorem Opened.delivered_iff {frames : List Frame} (opened : Opened label frames) :
    Delivered label frames ↔ Unbroken label.toList := by
  obtain ⟨inner, ending, only, ends, rfl⟩ := opened
  constructor
  · intro delivered
    by_contra broken
    exact not_delivered_of_broken _ broken delivered
  · intro unbroken
    exact delivered_of_unbroken unbroken only ends

end Listening

end Asolaria.Surface
