import Asolaria.Surface.Stream

namespace Asolaria.Surface
open Library StreamState

/-- What one step does, by where the stream stands. -/
inductive StreamCase (s : StreamState) : StreamEvent → StreamState → Prop
  | opened : s.place = .opening →
      StreamCase s (.stream true) { s with written := s.written ++ [.label s.label], place := .reading }
  | read {delivered} : s.place = .reading → s.offset < s.out.length →
      StreamCase s (.stream delivered)
        { s with offset := s.out.length, place := .checking (some (s.out.drop s.offset)) }
  | caughtUp {delivered} : s.place = .reading → s.out.length ≤ s.offset →
      StreamCase s (.stream delivered) { s with place := .checking none }
  | checked {delivered chunk} : s.place = .checking chunk →
      StreamCase s (.stream delivered) { s with place := .answering chunk s.listed }
  | sent {c alive} : s.place = .answering (some c) alive →
      StreamCase s (.stream true) { s with idleTicks := 0, written := s.written ++ [.data c], place := .reading }
  | ended {delivered} : s.place = .answering none false →
      StreamCase s (.stream delivered) { s with written := s.written ++ [.done], place := .ended }
  | waited {delivered idleTicks comment} : s.place = .answering none true → (∀ frame ∈ comment, frame = .keepalive) →
      StreamCase s (.stream delivered) { s with idleTicks, written := s.written ++ comment, place := .reading }
  | left {delivered idleTicks} : s.place ≠ .ended → s.place ≠ .checking none → s.place ≠ .answering none false →
      StreamCase s (.stream delivered) { s with idleTicks, place := .left }
  | returned {delivered} : s.place = .ended ∨ s.place = .left → StreamCase s (.stream delivered) s
  | append {bytes} : StreamCase s (.append bytes) { s with out := s.out ++ bytes }
  | kill : StreamCase s .kill { s with listed := false }

section Cases
variable {s after : StreamState} {event : StreamEvent}

theorem read_case (delivered : Bool) (place : s.place = .reading) : StreamCase s (.stream delivered) s.read := by
  unfold StreamState.read
  split
  · next new =>
    have length : s.offset + (s.out.drop s.offset).length = s.out.length := by
      rw [List.length_drop]
      omega
    dsimp only
    rw [length]
    exact .read place new
  · next old => exact .caughtUp place (Nat.not_lt.mp old)

theorem answer_case {chunk : Option (List UInt8)} {alive : Bool} (delivered : Bool)
    (place : s.place = .answering chunk alive) : StreamCase s (.stream delivered) (s.answer chunk alive delivered) := by
  cases chunk with
  | some c =>
    cases delivered with
    | true => exact .sent place
    | false => exact .left (by simp [place]) (by simp [place]) (by simp [place])
  | none =>
    cases alive with
    | false => exact .ended place
    | true =>
      unfold StreamState.answer
      dsimp only
      rw [if_neg (by decide)]
      split
      · have silent : StreamCase s (.stream delivered)
            { s with idleTicks := s.idleTicks + 1, written := s.written ++ [], place := .reading } :=
          .waited place (by simp)
        rwa [List.append_nil] at silent
      · cases delivered with
        | true => exact .waited place (by simp)
        | false => exact .left (by simp [place]) (by simp [place]) (by simp [place])

theorem StreamStep.case (step : StreamStep s event after) : StreamCase s event after := by
  cases step
  cases event with
  | append bytes => exact .append
  | kill => exact .kill
  | stream delivered =>
    change StreamCase s (.stream delivered) (s.stream delivered)
    unfold StreamState.stream
    split
    · next place =>
      split
      · next both =>
        obtain ⟨_, rfl⟩ := both
        exact .opened place
      · exact .left (by simp [place]) (by simp [place]) (by simp [place])
    · next place => exact read_case delivered place
    · next place => exact .checked place
    · next place => exact answer_case delivered place
    · next place => exact .returned (.inl place)
    · next place => exact .returned (.inr place)

end Cases

/-- The chunk that was read and not sent yet. -/
def Place.pending : Place → List UInt8
  | checking (some c) | answering (some c) _ => c
  | _ => []

/-- The sent chunks are the output up to the offset, but for the chunk in
hand. The end is written last, and only when the table was found without the
session. -/
structure Streamed (s : StreamState) : Prop where
  bound : s.offset ≤ s.out.length
  whole : s.place ≠ .left → s.sent ++ s.place.pending = s.out.take s.offset
  inside : s.sent <+: s.out
  closed : Frame.done ∈ s.written → s.place = .ended
  gone : s.place = .ended ∨ (∃ chunk, s.place = .answering chunk false) → s.listed = false

variable {s after : StreamState} {event : StreamEvent}

theorem StreamState.Fresh.streamed (fresh : s.Fresh) : Streamed s where
  bound := by rw [fresh.offset]; exact Nat.zero_le _
  whole := fun _ => by simp [StreamState.sent, fresh.written, fresh.place, fresh.offset, Place.pending]
  inside := by simp [StreamState.sent, fresh.written]
  closed := fun done => by rw [fresh.written] at done; cases done
  gone := by
    rintro (ended | ⟨chunk, answering⟩)
    · cases fresh.place.symm.trans ended
    · cases fresh.place.symm.trans answering

/-- Frames without a chunk do not show in what was sent. -/
theorem sent_append {frames : List Frame} (silent : ∀ frame ∈ frames, frame.chunk = []) :
    (s.written ++ frames).flatMap Frame.chunk = s.sent := by
  rw [List.flatMap_append, List.flatMap_eq_nil_iff.mpr silent, List.append_nil]
  rfl

theorem Streamed.whole_at (kept : Streamed s) {place : Place} (here : s.place = place) (inLoop : place ≠ .left) :
    s.sent ++ place.pending = s.out.take s.offset := here ▸ kept.whole (here ▸ inLoop)

theorem Streamed.not_done (kept : Streamed s) {place : Place} (here : s.place = place) (open_ : place ≠ .ended) :
    Frame.done ∉ s.written := fun done => open_ (here.symm.trans (kept.closed done))

theorem Streamed.step (kept : Streamed s) (step : StreamCase s event after) : Streamed after := by
  cases step with
  | opened place =>
    have whole := kept.whole_at place nofun
    have silent := @sent_append s [Frame.label s.label] (by simp [Frame.chunk])
    exact {
      bound := kept.bound
      whole := fun _ => (congrArg (· ++ _) silent).trans whole
      inside := (congrArg (· <+: s.out) silent).mpr kept.inside
      closed := by simpa using kept.not_done place nofun
      gone := by simp }
  | read place new =>
    have whole : s.sent ++ [] = s.out.take s.offset := kept.whole_at place nofun
    rw [List.append_nil] at whole
    exact {
      bound := Nat.le_refl _
      whole := fun _ => by
        change s.sent ++ s.out.drop s.offset = s.out.take s.out.length
        rw [whole, List.take_append_drop, List.take_length]
      inside := kept.inside
      closed := fun done => absurd done (kept.not_done place nofun)
      gone := by simp }
  | caughtUp place =>
    have whole := kept.whole_at place nofun
    exact {
      bound := kept.bound
      whole := fun _ => whole
      inside := kept.inside
      closed := fun done => absurd done (kept.not_done place nofun)
      gone := by simp }
  | @checked _ chunk place =>
    have whole := kept.whole_at place nofun
    exact {
      bound := kept.bound
      whole := fun _ => by cases chunk <;> exact whole
      inside := kept.inside
      closed := fun done => absurd done (kept.not_done place nofun)
      gone := by simp }
  | @sent c _ place =>
    have whole : s.sent ++ c = s.out.take s.offset := kept.whole_at place nofun
    have more : (s.written ++ [Frame.data c]).flatMap Frame.chunk = s.out.take s.offset := by
      rw [List.flatMap_append, List.flatMap_singleton]
      exact whole
    exact {
      bound := kept.bound
      whole := fun _ => (List.append_nil _).trans more
      inside := (congrArg (· <+: s.out) more).mpr (List.take_prefix _ _)
      closed := by simpa using kept.not_done place nofun
      gone := by simp }
  | ended place =>
    have whole := kept.whole_at place nofun
    have silent := @sent_append s [Frame.done] (by simp [Frame.chunk])
    exact {
      bound := kept.bound
      whole := fun _ => (congrArg (· ++ _) silent).trans whole
      inside := (congrArg (· <+: s.out) silent).mpr kept.inside
      closed := fun _ => rfl
      gone := fun _ => kept.gone (.inr ⟨none, place⟩) }
  | @waited _ _ comment place keeps =>
    have whole := kept.whole_at place nofun
    have silent := @sent_append s comment fun frame member => by rw [keeps frame member]; rfl
    exact {
      bound := kept.bound
      whole := fun _ => (congrArg (· ++ _) silent).trans whole
      inside := (congrArg (· <+: s.out) silent).mpr kept.inside
      closed := fun done => by
        rcases List.mem_append.mp done with before | last
        · exact absurd before (kept.not_done place nofun)
        · cases keeps _ last
      gone := by simp }
  | left other =>
    exact {
      bound := kept.bound
      whole := fun inLoop => absurd rfl inLoop
      inside := kept.inside
      closed := fun done => absurd (kept.closed done) other
      gone := by simp }
  | returned => exact kept
  | @append bytes =>
    exact {
      bound := Nat.le_trans kept.bound (List.prefix_append s.out bytes).length_le
      whole := fun inLoop => (kept.whole inLoop).trans (List.take_append_of_le_length kept.bound).symm
      inside := kept.inside.trans (List.prefix_append _ _)
      closed := kept.closed
      gone := kept.gone }
  | kill => exact { kept with gone := fun _ => rfl }

/-- The stream has found nothing new and is on its way to the end. -/
def Place.Finishing (place : Place) : Prop :=
  place = .checking none ∨ place = .answering none false ∨ place = .ended

/-- After a removal that met the output `before`: a finishing stream has sent
all of it. -/
structure Covers (before : List UInt8) (s : StreamState) : Prop where
  gone : s.listed = false
  grown : before <+: s.out
  passed : s.place.Finishing → before.length ≤ s.offset

/-- After a removal between the two locks of a turn: the stream finishes with a
part of `before` unsent. -/
structure Misses (before : List UInt8) (s : StreamState) : Prop where
  gone : s.listed = false
  finishing : s.place.Finishing
  short : s.offset < before.length

variable {before : List UInt8}

theorem Covers.step (covers : Covers before s) (step : StreamCase s event after) : Covers before after := by
  obtain ⟨gone, grown, passed⟩ := covers
  cases step with
  | opened | read | sent | waited | left => exact ⟨gone, grown, fun finishing => by simp [Place.Finishing] at finishing⟩
  | caughtUp _ old => exact ⟨gone, grown, fun _ => Nat.le_trans grown.length_le old⟩
  | @checked _ chunk place =>
    refine ⟨gone, grown, fun finishing => passed ?_⟩
    have empty : chunk = none := by simpa [Place.Finishing, gone] using finishing
    exact .inl (empty ▸ place)
  | ended place => exact ⟨gone, grown, fun _ => passed (.inr (.inl place))⟩
  | returned => exact ⟨gone, grown, passed⟩
  | append => exact ⟨gone, grown.trans (List.prefix_append _ _), passed⟩
  | kill => exact ⟨rfl, grown, passed⟩

theorem Misses.step (misses : Misses before s) (step : StreamCase s event after) : Misses before after := by
  obtain ⟨gone, finishing, short⟩ := misses
  cases step with
  | opened place | read place | caughtUp place | sent place | waited place =>
    rw [place] at finishing
    simp [Place.Finishing] at finishing
  | @checked _ chunk place =>
    have empty : chunk = none := by
      rw [place] at finishing
      simpa [Place.Finishing] using finishing
    exact ⟨gone, .inr (.inl (by rw [empty, gone])), short⟩
  | ended => exact ⟨gone, .inr (.inr rfl), short⟩
  | left notEnded notChecking notAnswering =>
    rcases finishing with checking | answering | ended
    · exact absurd checking notChecking
    · exact absurd answering notAnswering
    · exact absurd ended notEnded
  | returned => exact ⟨gone, finishing, short⟩
  | append => exact ⟨gone, finishing, short⟩
  | kill => exact ⟨rfl, finishing, short⟩

/-- A removal leaves the stream covering the output there was, or about to miss
a part of it. -/
theorem Removes.outcome {step : StreamTransition} (removes : Removes step)
    (moved : StreamStep step.before step.label step.after) (streamed : Streamed step.before) :
    (step.before.Exposed → Misses step.before.out step.after) ∧
      (¬ step.before.Exposed → Covers step.before.out step.after) := by
  obtain ⟨s, event, after⟩ := step
  obtain ⟨label, listed⟩ := removes
  dsimp only at label listed moved streamed ⊢
  subst label
  cases moved
  constructor
  · rintro ⟨place, short⟩
    exact ⟨rfl, .inl place, short⟩
  · intro safe
    refine ⟨rfl, List.prefix_rfl, ?_⟩
    rintro (checking | answering | ended)
    · exact Nat.not_lt.mp fun short => safe ⟨checking, short⟩
    · cases listed.symm.trans (streamed.gone (.inr ⟨none, answering⟩))
    · cases listed.symm.trans (streamed.gone (.inl ended))

section Runs
variable {first current : StreamState} {history : List StreamTransition}

theorem Streamed.run (run : Run StreamStep first history current) (fresh : first.Fresh) : Streamed current :=
  run.preserves (fun step streamed => streamed.step step.case) fresh.streamed

/-- When the end is written, the output of a removal was sent exactly where the
removal did not fall between the two locks with output unread. -/
theorem Removes.sent_iff {step : StreamTransition} (removes : Removes step) (fresh : first.Fresh)
    (run : Run StreamStep first history current) (member : step ∈ history) (ended : current.place = .ended) :
    step.before.out <+: current.sent ↔ ¬ step.before.Exposed := by
  obtain ⟨earlier, later, recorded⟩ := List.append_of_mem member
  obtain ⟨toStep, moved⟩ := run.split recorded
  have fromStep := run.rest recorded
  obtain ⟨misses, covers⟩ := removes.outcome moved (Streamed.run toStep fresh)
  have whole : current.sent ++ [] = current.out.take current.offset := (Streamed.run run fresh).whole_at ended nofun
  rw [List.append_nil] at whole
  rw [whole, List.prefix_take_iff]
  by_cases exposed : step.before.Exposed
  · have missed := fromStep.preserves (fun step misses => misses.step step.case) (misses exposed)
    exact iff_of_false (fun sent => Nat.not_le.mpr missed.short sent.2) (not_not_intro exposed)
  · have covered := fromStep.preserves (fun step covers => covers.step step.case) (covers exposed)
    exact iff_of_true ⟨covered.grown, covered.passed (.inr (.inr ended))⟩ exposed

/-- A stream that writes its end has sent all the output there was at the
removal, and nothing twice, exactly in the runs where no removal falls between
an empty read and the look at the table with output appended since. -/
theorem stream_complete_iff (fresh : first.Fresh) (run : Run StreamStep first history current)
    (done : Frame.done ∈ current.written) :
    Complete history current ↔ ∀ step ∈ history, Removes step → ¬ step.before.Exposed := by
  have streamed := Streamed.run run fresh
  have ended := streamed.closed done
  constructor
  · intro complete step member removes
    exact (removes.sent_iff fresh run member ended).mp (complete.2 step member removes)
  · intro safe
    refine ⟨streamed.inside, fun step member removes => ?_⟩
    exact (removes.sent_iff fresh run member ended).mpr (safe step member removes)

end Runs

/-- The session is taken from the table while the stream sends a byte. -/
theorem stream_complete_between_turns :
    Complete
      (trace StreamState.perform ⟨"cmd", [104], true, 0, 0, [], .opening⟩
        [.stream true, .stream true, .stream true, .kill, .stream true, .stream true, .stream true, .stream true])
      ([.stream true, .stream true, .stream true, .kill, .stream true, .stream true, .stream true,
        .stream true].foldl StreamState.perform ⟨"cmd", [104], true, 0, 0, [], .opening⟩) :=
  (stream_complete_iff ⟨rfl, rfl, rfl⟩ (run_trace StreamState.perform _ _) (by decide)).mpr (by decide)

/-- Output that is appended after an empty read is lost when the session is
taken from the table before the stream looks there. -/
theorem stream_loses_output : ∃ first history current, StreamState.Fresh first ∧
    Run StreamStep first history current ∧ Frame.done ∈ current.written ∧ ¬ Complete history current :=
  ⟨⟨"cmd", [], true, 0, 0, [], .opening⟩, _, _, ⟨rfl, rfl, rfl⟩,
    run_trace StreamState.perform _
      [.stream true, .stream true, .append [104, 105], .kill, .stream true, .stream true],
    by decide, by decide⟩

end Asolaria.Surface
