import Asolaria.Surface.Framing

namespace Asolaria.Surface
open Library EventStream

/-- The label and what may stand behind it, but for the end. -/
def Going (label : String) (frames : List Frame) : Prop :=
  ∃ inner, (∀ frame ∈ inner, Frame.Inner frame) ∧ frames = .label label :: inner

/-- A place in the loop of the stream. -/
def Place.InLoop (place : Place) : Prop := place ≠ .opening ∧ place ≠ .ended ∧ place ≠ .left

/-- The label is written before the loop and the end when it is left, unless
the connection broke. -/
structure Framed (label : String) (s : StreamState) : Prop where
  named : s.label = label
  waiting : s.place = .opening → s.written = []
  going : s.place.InLoop → Going label s.written
  ended : s.place = .ended → ∃ frames, Going label frames ∧ s.written = frames ++ [.done]
  left : s.place = .left → s.written = [] ∨ Going label s.written

variable {label : String} {s after : StreamState} {event : StreamEvent}

theorem framed_spawnSession (shell : String) (spawned : Except String Unit) : Framed shell (spawnSession shell spawned) where
  named := rfl
  waiting := fun _ => rfl
  going := fun inLoop => absurd rfl inLoop.1
  ended := nofun
  left := nofun

theorem Going.append {frames more : List Frame} (going : Going label frames) (only : ∀ frame ∈ more, Frame.Inner frame) :
    Going label (frames ++ more) := by
  obtain ⟨inner, before, rfl⟩ := going
  exact ⟨inner ++ more, List.forall_mem_append.mpr ⟨before, only⟩, rfl⟩

/-- A step inside of the loop. -/
theorem Framed.stays (framed : Framed label s) (named : after.label = s.label) (inLoop : after.place.InLoop)
    (going : Going label after.written) : Framed label after where
  named := named.trans framed.named
  waiting := fun here => absurd here inLoop.1
  going := fun _ => going
  ended := fun here => absurd here inLoop.2.1
  left := fun here => absurd here inLoop.2.2

theorem Framed.going_at (framed : Framed label s) {place : Place} (here : s.place = place) (inLoop : place.InLoop) :
    Going label s.written := framed.going (here ▸ inLoop)

theorem Framed.step (framed : Framed label s) (step : StreamCase s event after) : Framed label after := by
  cases step with
  | opened place =>
    refine framed.stays rfl ⟨nofun, nofun, nofun⟩ ⟨[], nofun, ?_⟩
    rw [framed.waiting place, framed.named, List.nil_append]
  | read place | caughtUp place | checked place =>
    have going := framed.going_at place ⟨nofun, nofun, nofun⟩
    exact framed.stays rfl ⟨nofun, nofun, nofun⟩ going
  | @sent c _ place =>
    have going := framed.going_at place ⟨nofun, nofun, nofun⟩
    refine framed.stays rfl ⟨nofun, nofun, nofun⟩ (going.append ?_)
    intro frame member
    exact .inr ⟨c, List.mem_singleton.mp member⟩
  | ended place =>
    have going := framed.going_at place ⟨nofun, nofun, nofun⟩
    exact ⟨framed.named, nofun, fun inLoop => absurd rfl inLoop.2.1, fun _ => ⟨s.written, going, rfl⟩, nofun⟩
  | waited place keeps =>
    have going := framed.going_at place ⟨nofun, nofun, nofun⟩
    exact framed.stays rfl ⟨nofun, nofun, nofun⟩ (going.append fun frame member => .inl (keeps frame member))
  | left notEnded =>
    refine ⟨framed.named, nofun, fun inLoop => absurd rfl inLoop.2.2, nofun, fun _ => ?_⟩
    by_cases opening : s.place = .opening
    · exact .inl (framed.waiting opening)
    · by_cases gone : s.place = .left
      · exact framed.left gone
      · exact .inr (framed.going ⟨opening, notEnded, gone⟩)
  | returned => exact framed
  | append | kill => exact ⟨framed.named, framed.waiting, framed.going, framed.ended, framed.left⟩

/-- Whatever was written begins with the label. -/
theorem Framed.begun (framed : Framed label s) (begun : s.written ≠ []) : Opened label s.written := by
  have opened (going : Going label s.written) : Opened label s.written := by
    obtain ⟨inner, only, written⟩ := going
    exact ⟨inner, [], only, .inl rfl, by rw [written, List.append_nil]⟩
  by_cases opening : s.place = .opening
  · exact absurd (framed.waiting opening) begun
  · by_cases ended : s.place = .ended
    · obtain ⟨frames, ⟨inner, only, rfl⟩, written⟩ := framed.ended ended
      exact ⟨inner, [.done], only, .inr rfl, written⟩
    · by_cases left : s.place = .left
      · exact opened ((framed.left left).resolve_left begun)
      · exact opened (framed.going ⟨opening, ended, left⟩)

/-- A listener is given the label, the chunks and the end exactly where the
label has no line feed and no carriage return. -/
theorem stream_delivered_iff (body : List UInt8) (spawned : Except String Unit) {history : List StreamTransition}
    {current : StreamState} (run : Run StreamStep (spawnSession (shellLabel body) spawned) history current)
    (begun : current.written ≠ []) :
    Delivered (shellLabel body) current.written ↔ Unbroken (shellLabel body).toList := by
  have framed : Framed (shellLabel body) current :=
    run.preserves (fun step framed => framed.step step.case) (framed_spawnSession _ spawned)
  exact (framed.begun begun).delivered_iff

/-- The shell of a label is asked for with a line feed behind it, and writes
two bytes. -/
theorem stream_delivered_bash :
    Delivered (shellLabel (utf8 "bash\n"))
      ([.append [104, 105], .stream true, .stream true, .stream true, .stream true].foldl StreamState.perform
        (spawnSession (shellLabel (utf8 "bash\n")) (.ok ()))).written :=
  (stream_delivered_iff _ _ (run_trace StreamState.perform _ _) (by decide)).mpr (by decide)

/-- The second line of a label is not read as a part of it. -/
theorem stream_breaks_label : ∃ body spawned history current,
    Run StreamStep (spawnSession (shellLabel body) spawned) history current ∧ current.written ≠ [] ∧
      ¬ Delivered (shellLabel body) current.written :=
  ⟨utf8 "cmd\nx", .ok (), _, _, run_trace StreamState.perform _ [.stream true], by decide,
    not_delivered_of_broken [] (by decide)⟩

end Asolaria.Surface
