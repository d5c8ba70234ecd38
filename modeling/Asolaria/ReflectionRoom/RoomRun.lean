import Asolaria.ReflectionRoom.WriterSteps
import Asolaria.Library.Run
import Asolaria.Library.HashChain

namespace Asolaria.ReflectionRoom
open Library
open Library.Sha256 (Digest)

/-- A room in service: its single writer and the prepared events that its
clients hold and may present at any later time, in any order, repeatedly. -/
structure RoomSystem where
  writer : RoomWriter
  held : List PreparedEvent

inductive RoomLabel
  | prepare (draft : EventDraft) (reply : Except RoomError PreparedEvent)
  | commit (prepared : PreparedEvent) (reply : Except RoomError CommitOutcome)
  | sealGulp (product : Digest) (reply : Except RoomError GulpSeal)

def RoomLabel.committed? : RoomLabel → Option CommittedEvent
  | .commit _ (.ok (.committed event)) => some event
  | _ => none

def RoomLabel.sealed? : RoomLabel → Option GulpSeal
  | .sealGulp _ (.ok gulpSeal) => some gulpSeal
  | _ => none

abbrev RoomHistory := List (Transition RoomSystem RoomLabel)

/-- The events for which a commit returned `Committed`, in commit order. -/
def committedEvents (history : RoomHistory) : List CommittedEvent :=
  history.filterMap (·.label.committed?)

def gulpSeals (history : RoomHistory) : List GulpSeal :=
  history.filterMap (·.label.sealed?)

@[simp] theorem committedEvents_append (before after : RoomHistory) :
    committedEvents (before ++ after) = committedEvents before ++ committedEvents after :=
  List.filterMap_append

@[simp] theorem committedEvents_singleton (transition : Transition RoomSystem RoomLabel) :
    committedEvents [transition] = transition.label.committed?.toList := filterMap_single _ transition

@[simp] theorem gulpSeals_append (before after : RoomHistory) :
    gulpSeals (before ++ after) = gulpSeals before ++ gulpSeals after :=
  List.filterMap_append

@[simp] theorem gulpSeals_singleton (transition : Transition RoomSystem RoomLabel) :
    gulpSeals [transition] = transition.label.sealed?.toList := filterMap_single _ transition

section
variable (sha256 : List UInt8 → Digest)

/-- A value that some room's `prepare` can have returned. The event inside a
prepared event is private, so no other value can be presented. -/
def PreparedEvent.Issued (prepared : PreparedEvent) : Prop :=
  ∃ (w : RoomWriter) (draft : EventDraft), w.prepare sha256 draft = .ok prepared

/-- One call on the room. Clients commit what was prepared here; events
issued elsewhere are committed only as far as `outside` admits them. -/
inductive RoomStep (outside : RoomWriter → PreparedEvent → Prop) : RoomSystem → RoomLabel → RoomSystem → Prop
  | prepare (s : RoomSystem) (draft : EventDraft) :
      RoomStep outside s (.prepare draft (s.writer.prepare sha256 draft))
        { s with held := s.held ++ (s.writer.prepare sha256 draft).toOption.toList }
  | commit (s : RoomSystem) {prepared : PreparedEvent} :
      prepared ∈ s.held ∨ prepared.Issued sha256 ∧ outside s.writer prepared →
      RoomStep outside s (.commit prepared (s.writer.commit prepared).1)
        { s with writer := (s.writer.commit prepared).2 }
  | sealGulp (s : RoomSystem) (product : Digest) :
      RoomStep outside s (.sealGulp product (s.writer.sealGulp sha256 product).1)
        { s with writer := (s.writer.sealGulp sha256 product).2 }

/-- Runs of one room from its creation. -/
def RoomRun (outside : RoomWriter → PreparedEvent → Prop) (roomHandle8 : Handle8) (roomIdSha256 : Digest)
    (history : RoomHistory) (s : RoomSystem) : Prop :=
  ∃ first, RoomWriter.new roomHandle8 roomIdSha256 = .ok first ∧ Run (RoomStep sha256 outside) ⟨first, []⟩ history s

end

/-- Only events prepared on this writer are committed. -/
def ownOnly : RoomWriter → PreparedEvent → Prop := fun _ _ => False

/-- Whatever any room's `prepare` returned may be committed. -/
def anyIssued : RoomWriter → PreparedEvent → Prop := fun _ _ => True

variable {sha256 : List UInt8 → Digest} {outside : RoomWriter → PreparedEvent → Prop}
  {roomHandle8 : Handle8} {roomIdSha256 : Digest} {history : RoomHistory} {s : RoomSystem}

/-- The part of a run up to a recorded step is a run, ending in the state
that step started from. -/
theorem RoomRun.before {before after : RoomHistory} {transition : Transition RoomSystem RoomLabel}
    (run : RoomRun sha256 outside roomHandle8 roomIdSha256 history s)
    (recorded : history = before ++ transition :: after) :
    RoomRun sha256 outside roomHandle8 roomIdSha256 before transition.before ∧
      RoomStep sha256 outside transition.before transition.label transition.after := by
  obtain ⟨first, created, run⟩ := run
  obtain ⟨earlier, step⟩ := run.split recorded
  exact ⟨⟨first, created, earlier⟩, step⟩

theorem RoomStep.commit_reply {before after : RoomSystem} {label : RoomLabel} {prepared : PreparedEvent}
    {reply : Except RoomError CommitOutcome} (step : RoomStep sha256 outside before label after)
    (commits : label = .commit prepared reply) :
    reply = (before.writer.commit prepared).1 ∧
      (prepared ∈ before.held ∨ prepared.Issued sha256 ∧ outside before.writer prepared) := by
  cases step with
  | commit admitted =>
    obtain ⟨rfl, rfl⟩ := RoomLabel.commit.inj commits
    exact ⟨rfl, admitted⟩
  | prepare | sealGulp => cases commits

/-- A step that publishes an event is the commit of exactly that event, and
passed every guard of the commit. -/
theorem RoomStep.published {before after : RoomSystem} {label : RoomLabel} {event : CommittedEvent}
    (step : RoomStep sha256 outside before label after) (found : label.committed? = some event) :
    label = .commit ⟨event⟩ (.ok (.committed event)) ∧ ¬ before.writer.HasKey event.draft.idempotencyKey ∧
      ¬ before.writer.Full ∧ before.writer.Fresh ⟨event⟩ := by
  cases step with
  | prepare | sealGulp => cases found
  | @commit prepared admitted =>
    have reached := before.writer.commit_case prepared
    generalize before.writer.commit prepared = outcome at found reached
    cases reached with
    | committed noKey room fresh _ =>
      obtain rfl := Option.some.inj found
      exact ⟨rfl, noKey, room, fresh⟩
    | _ => cases found

theorem RoomWriter.new_ok {first : RoomWriter} (created : RoomWriter.new roomHandle8 roomIdSha256 = .ok first) :
    first = ⟨roomHandle8, roomIdSha256, 1, genesisSha256, [], 0, 0⟩ := by
  unfold RoomWriter.new at created
  split at created
  · cases created
  · exact (Except.ok.inj created).symm

theorem PreparedEvent.Issued.sequence_fits {prepared : PreparedEvent} (issued : prepared.Issued sha256) :
    prepared.event.sequence.toNat + 1 < 2 ^ 64 := by
  obtain ⟨w, draft, prepares⟩ := issued
  obtain ⟨_, _, fits, rfl⟩ := RoomWriter.prepare_iff.mp prepares
  exact fits

/-- The effects of one call on the writer: nothing, one published event at
the writer's position, or one released full window. -/
inductive RoomEffect (sha256 : List UInt8 → Digest) (w : RoomWriter) :
    Option CommittedEvent → Option GulpSeal → RoomWriter → Prop
  | unchanged : RoomEffect sha256 w none none w
  | committed {event} : ¬ w.HasKey event.draft.idempotencyKey → ¬ w.Full → w.Fresh ⟨event⟩ → w.Countable →
      RoomEffect sha256 w (some event) none (w.push event)
  | sealed (product) : w.recent.length.toUInt32 = activeEnvelopeWindow → w.totalGulps.toNat + 1 < 2 ^ 64 →
      RoomEffect sha256 w none (some (w.gulpSeal sha256 product)) w.release

/-- Where the next sequence number is one past the event count, the overflow
returns of `commit` cannot be reached by an issued event. -/
theorem RoomWriter.commit_effect {w : RoomWriter} {prepared : PreparedEvent}
    (balanced : w.nextSequence.toNat = w.totalEvents.toNat + 1) (issued : prepared.Issued sha256) :
    RoomEffect sha256 w (RoomLabel.commit prepared (w.commit prepared).1).committed? none (w.commit prepared).2 ∧
      (w.commit prepared).1 ≠ .error .sequenceOverflow := by
  have range := issued.sequence_fits
  generalize result : w.commit prepared = outcome
  have reached := w.commit_case prepared
  rw [result] at reached
  cases reached with
  | duplicate => exact ⟨.unchanged, by simp⟩
  | full => exact ⟨.unchanged, by simp⟩
  | stale => exact ⟨.unchanged, by simp⟩
  | committed noKey room fresh countable => exact ⟨.committed noKey room fresh countable, by simp⟩
  | overflow noKey room fresh stuck =>
    rw [fresh.1] at range
    exact absurd ⟨range, by omega⟩ stuck

theorem RoomWriter.sealGulp_effect (sha256 : List UInt8 → Digest) (w : RoomWriter) (product : Digest) :
    RoomEffect sha256 w none (RoomLabel.sealGulp product (w.sealGulp sha256 product).1).sealed?
      (w.sealGulp sha256 product).2 := by
  generalize result : w.sealGulp sha256 product = outcome
  have reached := w.sealGulp_case sha256 product
  rw [result] at reached
  cases reached with
  | refused error => exact .unchanged
  | sealed ready fits => exact .sealed product ready fits

/-- The events of a room as a chain: each names the digest before it. -/
def eventChain : ChainFormat CommittedEvent Digest where
  genesis := genesisSha256
  previous := (·.previousSha256)
  digest := (·.fullSha256)

/-- The writer as an account of everything committed and sealed so far. -/
structure Accounted (log : List CommittedEvent) (seals : List GulpSeal) (w : RoomWriter) : Prop where
  total : w.totalEvents.toNat = log.length
  next : w.nextSequence.toNat = log.length + 1
  head : w.headSha256 = eventChain.head log
  gulps : w.totalGulps.toNat = seals.length
  window : ∃ older, log = older ++ w.recent ∧ older.length = 2000 * seals.length
  capacity : w.recent.length ≤ 2000
  keys : (w.recent.map (·.draft.idempotencyKey)).Nodup
  linked : eventChain.Linked log
  sequences : ∀ k (bound : k < log.length), log[k].sequence.toNat = k + 1

/-- The relation between the two counters that keeps `commit` from
overflowing behind its push. -/
theorem Accounted.balanced {log : List CommittedEvent} {seals : List GulpSeal} {w : RoomWriter}
    (account : Accounted log seals w) : w.nextSequence.toNat = w.totalEvents.toNat + 1 := by
  rw [account.next, account.total]

theorem Accounted.recent_mem {log : List CommittedEvent} {seals : List GulpSeal} {w : RoomWriter}
    (account : Accounted log seals w) {event : CommittedEvent} (member : event ∈ w.recent) : event ∈ log := by
  obtain ⟨older, split, _⟩ := account.window
  rw [split]
  exact List.mem_append_right older member

theorem Accounted.initial (roomHandle8 : Handle8) (roomIdSha256 : Digest) :
    Accounted [] [] ⟨roomHandle8, roomIdSha256, 1, genesisSha256, [], 0, 0⟩ where
  total := rfl
  next := rfl
  head := rfl
  gulps := rfl
  window := ⟨[], rfl, rfl⟩
  capacity := Nat.zero_le _
  keys := List.nodup_nil
  linked := .nil
  sequences := by simp

theorem Accounted.committed {log : List CommittedEvent} {seals : List GulpSeal} {w : RoomWriter}
    {event : CommittedEvent} (account : Accounted log seals w) (noKey : ¬ w.HasKey event.draft.idempotencyKey)
    (room : ¬ w.Full) (fresh : w.Fresh ⟨event⟩) (countable : w.Countable) :
    Accounted (log ++ [event]) seals (w.push event) where
  total := by
    rw [List.length_append, List.length_singleton, ← account.total]
    exact toNat_add_of_lt countable.2
  next := by
    rw [List.length_append, List.length_singleton, ← account.next]
    exact toNat_add_of_lt countable.1
  head := (eventChain.head_append_singleton log event).symm
  gulps := account.gulps
  window := by
    obtain ⟨older, split, length⟩ := account.window
    exact ⟨older, by rw [split, List.append_assoc]; rfl, length⟩
  capacity := by
    have below : w.recent.length < 2000 := Nat.not_le.mp room
    simp only [RoomWriter.push, List.length_append, List.length_singleton]
    omega
  keys := by
    simp only [RoomWriter.push, List.map_append, List.map_cons, List.map_nil]
    refine List.nodup_append.mpr ⟨account.keys, List.pairwise_singleton _ _, ?_⟩
    intro key member other single same
    obtain ⟨earlier, present, rfl⟩ := List.mem_map.mp member
    exact noKey ⟨earlier, present, same.trans (List.mem_singleton.mp single)⟩
  linked := account.linked.snoc (fresh.2.trans account.head)
  sequences := forall_getElem_concat (fun k (entry : CommittedEvent) => entry.sequence.toNat = k + 1) account.sequences
    ((congrArg UInt64.toNat fresh.1).trans account.next)

/-- A window of exactly the released length is what the seal consumed. -/
theorem Accounted.full_of_ready {log : List CommittedEvent} {seals : List GulpSeal} {w : RoomWriter}
    (account : Accounted log seals w) (ready : w.recent.length.toUInt32 = activeEnvelopeWindow) :
    w.recent.length = 2000 := by
  have capacity := account.capacity
  have value := congrArg UInt32.toNat ready
  rw [Nat.toUInt32, UInt32.toNat_ofNat_of_lt' (by rw [UInt32.size]; omega)] at value
  exact value

theorem Accounted.sealed {log : List CommittedEvent} {seals : List GulpSeal} {w : RoomWriter}
    (account : Accounted log seals w) (gulpSeal : GulpSeal)
    (ready : w.recent.length.toUInt32 = activeEnvelopeWindow) (fits : w.totalGulps.toNat + 1 < 2 ^ 64) :
    Accounted log (seals ++ [gulpSeal]) w.release where
  total := account.total
  next := account.next
  head := account.head
  gulps := by
    rw [List.length_append, List.length_singleton, ← account.gulps]
    exact toNat_add_of_lt fits
  window := by
    obtain ⟨older, split, length⟩ := account.window
    have consumed := account.full_of_ready ready
    refine ⟨log, by simp [RoomWriter.release], ?_⟩
    rw [split, List.length_append, length, consumed, List.length_append, List.length_singleton]
    omega
  capacity := Nat.zero_le _
  keys := List.nodup_nil
  linked := account.linked
  sequences := account.sequences

theorem Accounted.effect {log : List CommittedEvent} {seals : List GulpSeal} {w after : RoomWriter}
    {committed : Option CommittedEvent} {gulpSeal : Option GulpSeal} (account : Accounted log seals w)
    (effect : RoomEffect sha256 w committed gulpSeal after) :
    Accounted (log ++ committed.toList) (seals ++ gulpSeal.toList) after := by
  cases effect with
  | unchanged => simpa using account
  | committed noKey room fresh countable => simpa using account.committed noKey room fresh countable
  | sealed product ready fits => simpa using account.sealed _ ready fits

/-- The effect of any admitted call, once every held event was issued. -/
theorem RoomStep.effect {label : RoomLabel} {t : RoomSystem} (step : RoomStep sha256 outside s label t)
    (balanced : s.writer.nextSequence.toNat = s.writer.totalEvents.toNat + 1)
    (issued : ∀ prepared ∈ s.held, prepared.Issued sha256) :
    RoomEffect sha256 s.writer label.committed? label.sealed? t.writer := by
  cases step with
  | prepare draft => exact .unchanged
  | @commit prepared admitted =>
    have present : prepared.Issued sha256 := admitted.elim (issued _) And.left
    exact (s.writer.commit_effect balanced present).1
  | sealGulp product => exact s.writer.sealGulp_effect sha256 product

theorem RoomStep.held_issued {label : RoomLabel} {t : RoomSystem} (step : RoomStep sha256 outside s label t)
    (issued : ∀ prepared ∈ s.held, prepared.Issued sha256) : ∀ prepared ∈ t.held, prepared.Issued sha256 := by
  cases step with
  | prepare draft =>
    intro prepared member
    rcases List.mem_append.mp member with old | new
    · exact issued prepared old
    · cases reply : s.writer.prepare sha256 draft with
      | error error => simp [reply, Except.toOption] at new
      | ok fresh =>
        simp only [reply, Except.toOption, Option.toList_some, List.mem_singleton] at new
        exact ⟨s.writer, draft, by rw [reply, new]⟩
  | commit => exact issued
  | sealGulp => exact issued

/-- Every run keeps the writer an exact account of its own history, for any
admitted mixture of stale, repeated, duplicate and foreign commits. -/
theorem RoomRun.accounted (run : RoomRun sha256 outside roomHandle8 roomIdSha256 history s) :
    Accounted (committedEvents history) (gulpSeals history) s.writer ∧
      ∀ prepared ∈ s.held, prepared.Issued sha256 := by
  obtain ⟨first, created, run⟩ := run
  obtain rfl := RoomWriter.new_ok created
  induction run with
  | start => exact ⟨Accounted.initial roomHandle8 roomIdSha256, by simp⟩
  | @next history s label t _ step ih =>
    obtain ⟨account, issued⟩ := ih
    refine ⟨?_, step.held_issued issued⟩
    simpa using account.effect (step.effect account.balanced issued)

end Asolaria.ReflectionRoom
