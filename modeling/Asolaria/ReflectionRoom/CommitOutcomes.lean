import Asolaria.ReflectionRoom.SequentialClient

namespace Asolaria.ReflectionRoom
open Library
open Library.Sha256 (Digest)

variable {sha256 : List UInt8 → Digest} {outside : RoomWriter → PreparedEvent → Prop}
  {roomHandle8 : Handle8} {roomIdSha256 : Digest} {history : RoomHistory} {s : RoomSystem}

/-- The event was prepared in this run while the writer stood at the given
next sequence number and head. -/
def PreparedAt (history : RoomHistory) (nextSequence : UInt64) (headSha256 : Digest) (event : CommittedEvent) : Prop :=
  ∃ transition ∈ history, (∃ draft, transition.label = .prepare draft (.ok ⟨event⟩)) ∧
    transition.before.writer.nextSequence = nextSequence ∧ transition.before.writer.headSha256 = headSha256

/-- A successful preparation is the stamp of the writer it was asked of. -/
theorem RoomStep.prepared_stamp {before after : RoomSystem} {label : RoomLabel} {draft : EventDraft}
    {prepared : PreparedEvent} (step : RoomStep sha256 outside before label after)
    (prepares : label = .prepare draft (.ok prepared)) :
    prepared = ⟨before.writer.stamp sha256 draft⟩ ∧ before.writer.nextSequence.toNat + 1 < 2 ^ 64 := by
  cases step with
  | prepare asked =>
    obtain ⟨rfl, reply⟩ := RoomLabel.prepare.inj prepares
    obtain ⟨_, _, fits, stamped⟩ := RoomWriter.prepare_iff.mp reply
    exact ⟨stamped, fits⟩
  | commit | sealGulp => cases prepares

theorem PreparedAt.sequence (run : RoomRun sha256 outside roomHandle8 roomIdSha256 history s)
    {nextSequence : UInt64} {headSha256 : Digest} {event : CommittedEvent}
    (prepared : PreparedAt history nextSequence headSha256 event) : event.sequence = nextSequence := by
  obtain ⟨first, _, run⟩ := run
  obtain ⟨transition, member, ⟨draft, label⟩, next, _⟩ := prepared
  obtain ⟨stamped, _⟩ := (run.step_of_mem member).prepared_stamp label
  have same : event = transition.before.writer.stamp sha256 draft := congrArg PreparedEvent.event stamped
  rw [same]
  exact next

/-- A preparation is fresh exactly while nothing was committed after it:
seals and refused calls in between do not move the position. -/
theorem RoomRun.fresh_iff {before after : RoomHistory} {transition : Transition RoomSystem RoomLabel}
    {draft : EventDraft} {prepared : PreparedEvent}
    (run : RoomRun sha256 outside roomHandle8 roomIdSha256 history s)
    (recorded : history = before ++ transition :: after)
    (prepares : transition.label = .prepare draft (.ok prepared)) :
    s.writer.Fresh prepared ↔ committedEvents after = [] := by
  obtain ⟨account, _⟩ := run.accounted
  obtain ⟨earlier, step⟩ := run.before recorded
  obtain ⟨accountBefore, _⟩ := earlier.accounted
  obtain ⟨rfl, _⟩ := step.prepared_stamp prepares
  have log : committedEvents history = committedEvents before ++ committedEvents after := by
    rw [recorded, ← List.singleton_append, committedEvents_append, committedEvents_append, committedEvents_singleton,
      prepares]
    rfl
  have next := account.next
  have nextBefore := accountBefore.next
  rw [log, List.length_append] at next
  constructor
  · intro fresh
    have same : transition.before.writer.nextSequence.toNat = s.writer.nextSequence.toNat :=
      congrArg UInt64.toNat fresh.1
    exact List.eq_nil_of_length_eq_zero (by omega)
  · intro none
    rw [none, List.append_nil] at log
    rw [none, List.length_nil] at next
    refine ⟨UInt64.toNat_inj.mp (nextBefore.trans next.symm), ?_⟩
    exact accountBefore.head.trans (by rw [account.head, log])

/-- Optimistic writers: at most one of the events prepared against one
position is ever committed, and a commit that meets neither its key nor a
full window is decided by whether anything was committed since. -/
theorem RoomRun.competing_commits (run : RoomRun sha256 ownOnly roomHandle8 roomIdSha256 history s) :
    (∀ nextSequence headSha256 i j (iBound : i < (committedEvents history).length)
      (jBound : j < (committedEvents history).length),
      PreparedAt history nextSequence headSha256 (committedEvents history)[i] →
      PreparedAt history nextSequence headSha256 (committedEvents history)[j] → i = j) ∧
    ∀ before transition after draft prepared, history = before ++ transition :: after →
      transition.label = .prepare draft (.ok prepared) →
      ¬ s.writer.HasKey prepared.event.draft.idempotencyKey → ¬ s.writer.Full →
      (s.writer.commit prepared).1 =
        if committedEvents after = [] then .ok (.committed prepared.event) else .error .stalePreparedEvent := by
  obtain ⟨account, _⟩ := run.accounted
  refine ⟨?_, ?_⟩
  · intro nextSequence headSha256 i j iBound jBound preparedI preparedJ
    have sequenceI := account.sequences i iBound
    have sequenceJ := account.sequences j jBound
    rw [preparedI.sequence run] at sequenceI
    rw [preparedJ.sequence run] at sequenceJ
    omega
  · intro before transition after draft prepared recorded prepares noKey room
    have fresh := run.fresh_iff recorded prepares
    by_cases none : committedEvents after = []
    · obtain ⟨stamped, fits⟩ := (run.before recorded).2.prepared_stamp prepares
      have position := (fresh.mpr none).1
      have total := account.total
      have next := account.next
      have countable : s.writer.Countable := by
        rw [stamped] at position
        have same : transition.before.writer.nextSequence.toNat = s.writer.nextSequence.toNat :=
          congrArg UInt64.toNat position
        exact ⟨by omega, by omega⟩
      rw [if_pos none, RoomWriter.commit_committed noKey room (fresh.mpr none) countable]
    · rw [if_neg none, RoomWriter.commit_stale noKey room (fun still => none (fresh.mp still))]

/-- Of two notes prepared against the empty room the second is refused once
the first is committed. -/
theorem competing_commits_rivals : ∃ history s,
    RoomRun Sha256.digest ownOnly (emptyRoom 0).roomHandle8 (emptyRoom 0).roomIdSha256 history s ∧
      committedEvents history = [(emptyRoom 0).stamp Sha256.digest (workNote 0)] ∧
      (s.writer.commit ⟨(emptyRoom 0).stamp Sha256.digest (workNote 1)⟩).1 = .error .stalePreparedEvent := by
  obtain ⟨before, transition, after, s, run, prepares, events, published, writer⟩ := rivalNotes_run Sha256.digest ownOnly
  have recent : s.writer.recent = [(emptyRoom 0).stamp Sha256.digest (workNote 0)] := by rw [writer]; rfl
  obtain ⟨noKey, room⟩ := oneNote_open recent
  have verdict := run.competing_commits.2 _ _ _ _ _ rfl prepares noKey room
  rw [published, if_neg (List.cons_ne_nil _ _)] at verdict
  exact ⟨_, s, run, events, verdict⟩

/-- Failed and duplicate commits, and failed seals, leave the writer exactly
as it was, in every reachable state and for every issued event. The overflow
returns behind the push are never taken. -/
theorem RoomRun.failed_call_keeps_writer (run : RoomRun sha256 anyIssued roomHandle8 roomIdSha256 history s) :
    (∀ prepared : PreparedEvent, prepared.Issued sha256 →
      (∀ error, (s.writer.commit prepared).1 = .error error →
        (s.writer.commit prepared).2 = s.writer ∧ error ≠ .sequenceOverflow) ∧
      ∀ event, (s.writer.commit prepared).1 = .ok (.duplicate event) → (s.writer.commit prepared).2 = s.writer) ∧
    ∀ product error, (s.writer.sealGulp sha256 product).1 = .error error →
      (s.writer.sealGulp sha256 product).2 = s.writer := by
  obtain ⟨account, _⟩ := run.accounted
  refine ⟨?_, ?_⟩
  · intro prepared issued
    obtain ⟨effect, noOverflow⟩ := s.writer.commit_effect account.balanced issued
    generalize s.writer.commit prepared = outcome at effect noOverflow
    obtain ⟨reply, after⟩ := outcome
    refine ⟨?_, ?_⟩
    · rintro error rfl
      cases effect
      exact ⟨rfl, fun overflow => noOverflow (by rw [overflow])⟩
    · rintro event rfl
      cases effect
      rfl
  · intro product error
    have effect := s.writer.sealGulp_effect sha256 product
    generalize s.writer.sealGulp sha256 product = outcome at effect
    obtain ⟨reply, after⟩ := outcome
    rintro rfl
    cases effect
    rfl

/-- A second preparation made before the first was committed fails as stale
and leaves the writer alone. -/
theorem failed_call_keeps_writer_oneNote : ∃ history s,
    RoomRun Sha256.digest anyIssued (emptyRoom 0).roomHandle8 (emptyRoom 0).roomIdSha256 history s ∧
      (s.writer.commit ⟨(emptyRoom 0).stamp Sha256.digest (workNote 1)⟩).1 = .error .stalePreparedEvent ∧
      (s.writer.commit ⟨(emptyRoom 0).stamp Sha256.digest (workNote 1)⟩).2 = s.writer := by
  obtain ⟨history, s, run, _, writer⟩ := oneNote_run Sha256.digest anyIssued
  have issued : PreparedEvent.Issued Sha256.digest ⟨(emptyRoom 0).stamp Sha256.digest (workNote 1)⟩ :=
    ⟨emptyRoom 0, workNote 1, emptyRoom_prepare _ 0 1⟩
  have stale : s.writer.commit ⟨(emptyRoom 0).stamp Sha256.digest (workNote 1)⟩ =
      (.error .stalePreparedEvent, s.writer) := by
    refine RoomWriter.commit_stale ?_ ?_ ?_
    · rintro ⟨event, member, same⟩
      have only : event = (emptyRoom 0).stamp Sha256.digest (workNote 0) := by
        simpa [writer, RoomWriter.push, emptyRoom] using member
      rw [only] at same
      exact absurd (labelDigest_inj (by omega) (by omega) same) (by omega)
    · simp [writer, RoomWriter.Full, RoomWriter.push, emptyRoom, activeEnvelopeWindow]
    · rintro ⟨moved, _⟩
      rw [writer] at moved
      exact absurd moved (by decide)
  exact ⟨history, s, run, by rw [stale], ((run.failed_call_keeps_writer.1 _ issued).1 _ (by rw [stale])).1⟩

end Asolaria.ReflectionRoom
