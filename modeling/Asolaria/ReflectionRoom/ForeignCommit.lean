import Asolaria.ReflectionRoom.SequentialClient

namespace Asolaria.ReflectionRoom
open Library
open Library.Sha256 (Digest)

def RoomWriter.identity (w : RoomWriter) : Handle8 × Digest := (w.roomHandle8, w.roomIdSha256)

def CommittedEvent.identity (event : CommittedEvent) : Handle8 × Digest := (event.roomHandle8, event.roomIdSha256)

/-- States of a writer in any run, with commits of whatever any room issued. -/
def RoomWriter.Reachable (sha256 : List UInt8 → Digest) (w : RoomWriter) : Prop :=
  ∃ roomHandle8 roomIdSha256 history s, RoomRun sha256 anyIssued roomHandle8 roomIdSha256 history s ∧ s.writer = w

/-- The two rooms are apart for this draft: the committing room already
holds its key, has no room left, or stands elsewhere than the preparing one. -/
def Apart (preparing committing : RoomWriter) (draft : EventDraft) : Prop :=
  committing.HasKey draft.idempotencyKey ∨ committing.Full ∨
    preparing.nextSequence ≠ committing.nextSequence ∨ preparing.headSha256 ≠ committing.headSha256

/-- Runs in which events of a differently named room are presented only
while the two rooms are apart. -/
def foreignApart (sha256 : List UInt8 → Digest) (committing : RoomWriter) (prepared : PreparedEvent) : Prop :=
  ∀ (preparing : RoomWriter) (draft : EventDraft), preparing.prepare sha256 draft = .ok prepared →
    preparing.identity ≠ committing.identity → Apart preparing committing draft

variable {sha256 : List UInt8 → Digest} {outside : RoomWriter → PreparedEvent → Prop}
  {roomHandle8 : Handle8} {roomIdSha256 : Digest} {history : RoomHistory} {s : RoomSystem}

/-- What two rooms that are apart have prepared is stale, unless it is turned
away before. -/
theorem Apart.stale {preparing committing : RoomWriter} {draft : EventDraft} (apart : Apart preparing committing draft)
    (noKey : ¬ committing.HasKey draft.idempotencyKey) (room : ¬ committing.Full) :
    ¬ committing.Fresh ⟨preparing.stamp sha256 draft⟩ := by
  intro fresh
  rcases apart with key | full | sequence | head
  · exact noKey key
  · exact room full
  · exact sequence fresh.1
  · exact head fresh.2

/-- Commit never looks at the room identity: a prepared event of any other
room is published exactly when its guards let an own event through. -/
theorem RoomWriter.Reachable.commit_refused_iff {preparing committing : RoomWriter} {draft : EventDraft}
    {prepared : PreparedEvent} (reachable : committing.Reachable sha256)
    (prepares : preparing.prepare sha256 draft = .ok prepared) :
    ((∀ event, (committing.commit prepared).1 ≠ .ok (.committed event)) ∧
      (committing.commit prepared).2 = committing) ↔ Apart preparing committing draft := by
  obtain ⟨_, _, _, s, run, rfl⟩ := reachable
  obtain ⟨account, _⟩ := run.accounted
  have total := account.total
  have next := account.next
  obtain ⟨_, _, fits, rfl⟩ := RoomWriter.prepare_iff.mp prepares
  have reached := s.writer.commit_case ⟨preparing.stamp sha256 draft⟩
  generalize s.writer.commit ⟨preparing.stamp sha256 draft⟩ = outcome at reached
  cases reached with
  | duplicate member same =>
    exact ⟨fun _ => .inl ⟨_, member, same⟩, fun _ => ⟨by simp, rfl⟩⟩
  | full noKey full => exact ⟨fun _ => .inr (.inl full), fun _ => ⟨by simp, rfl⟩⟩
  | stale noKey room moved =>
    refine ⟨fun _ => .inr (.inr ?_), fun _ => ⟨by simp, rfl⟩⟩
    by_contra same
    exact moved ⟨not_not.mp (not_or.mp same).1, not_not.mp (not_or.mp same).2⟩
  | committed noKey room fresh =>
    exact ⟨fun refused => absurd rfl (refused.1 _), fun apart => absurd fresh (apart.stale noKey room)⟩
  | overflow noKey room fresh stuck =>
    have same : preparing.nextSequence.toNat = s.writer.nextSequence.toNat := congrArg UInt64.toNat fresh.1
    exact absurd ⟨by omega, by omega⟩ stuck

theorem RoomEffect.identity {w after : RoomWriter} {committed : Option CommittedEvent} {gulpSeal : Option GulpSeal}
    (effect : RoomEffect sha256 w committed gulpSeal after) : after.identity = w.identity := by
  cases effect <;> rfl

/-- The room's own identity on everything a run can publish. -/
structure OwnIdentity (identity : Handle8 × Digest) (log : List CommittedEvent) (s : RoomSystem) : Prop where
  writer : s.writer.identity = identity
  held : ∀ prepared ∈ s.held, prepared.event.identity = identity
  entries : ∀ event ∈ log, event.identity = identity

theorem prepared_identity {w : RoomWriter} {draft : EventDraft} {prepared : PreparedEvent}
    (prepares : w.prepare sha256 draft = .ok prepared) : prepared.event.identity = w.identity := by
  obtain ⟨_, _, _, rfl⟩ := RoomWriter.prepare_iff.mp prepares
  rfl

/-- An event that passes the guards of `commit` was prepared under the name
of this room, as long as foreign events stay apart. -/
theorem OwnIdentity.published {identity : Handle8 × Digest} {log : List CommittedEvent} {label : RoomLabel}
    {t : RoomSystem} {event : CommittedEvent} (own : OwnIdentity identity log s)
    (step : RoomStep sha256 (foreignApart sha256) s label t) (found : label.committed? = some event) :
    event.identity = identity := by
  obtain ⟨commits, noKey, room, fresh⟩ := step.published found
  rcases (step.commit_reply commits).2 with member | ⟨⟨preparing, draft, prepares⟩, apart⟩
  · exact own.held _ member
  · have name : event.identity = preparing.identity := prepared_identity prepares
    by_cases same : preparing.identity = s.writer.identity
    · rw [name, same, own.writer]
    · have stamped := (RoomWriter.prepare_iff.mp prepares).2.2.2
      obtain rfl : event = preparing.stamp sha256 draft := congrArg PreparedEvent.event stamped
      exact absurd fresh ((apart preparing draft prepares same).stale noKey room)

theorem OwnIdentity.step {identity : Handle8 × Digest} {log : List CommittedEvent} {seals : List GulpSeal}
    {label : RoomLabel} {t : RoomSystem} (own : OwnIdentity identity log s) (account : Accounted log seals s.writer)
    (issued : ∀ prepared ∈ s.held, prepared.Issued sha256)
    (step : RoomStep sha256 (foreignApart sha256) s label t) :
    OwnIdentity identity (log ++ label.committed?.toList) t where
  writer := (step.effect account.balanced issued).identity.trans own.writer
  held := by
    intro prepared member
    cases step with
    | commit | sealGulp => exact own.held prepared member
    | prepare draft =>
      rcases List.mem_append.mp member with old | new
      · exact own.held prepared old
      · cases reply : s.writer.prepare sha256 draft with
        | error error => simp [reply, Except.toOption] at new
        | ok fresh =>
          simp only [reply, Except.toOption, Option.toList_some, List.mem_singleton] at new
          rw [new, prepared_identity reply, own.writer]
  entries := by
    intro event member
    rcases List.mem_append.mp member with old | new
    · exact own.entries event old
    · exact own.published step (Option.mem_toList.mp new)

theorem RoomRun.ownIdentity (run : RoomRun sha256 (foreignApart sha256) roomHandle8 roomIdSha256 history s) :
    OwnIdentity (roomHandle8, roomIdSha256) (committedEvents history) s := by
  obtain ⟨first, created, run⟩ := run
  induction run with
  | start =>
    obtain rfl := RoomWriter.new_ok created
    exact ⟨rfl, by simp, by simp [committedEvents]⟩
  | @next history s label t previous step ih =>
    obtain ⟨account, issued⟩ := RoomRun.accounted ⟨first, created, previous⟩
    simpa using ih.step account issued step

/-- A room refuses an event prepared by a differently named room, and stays
as it was, exactly when the two rooms are apart. In every run where foreign
events are presented only then, the log carries the room's own identity. -/
theorem foreign_commit_refused_iff (sha256 : List UInt8 → Digest) :
    (∀ preparing committing draft prepared, preparing.Reachable sha256 → committing.Reachable sha256 →
      preparing.identity ≠ committing.identity → preparing.prepare sha256 draft = .ok prepared →
      (((∀ event, (committing.commit prepared).1 ≠ .ok (.committed event)) ∧
        (committing.commit prepared).2 = committing) ↔ Apart preparing committing draft)) ∧
    ∀ roomHandle8 roomIdSha256 history s,
      RoomRun sha256 (foreignApart sha256) roomHandle8 roomIdSha256 history s →
      ∀ event ∈ committedEvents history, event.identity = (roomHandle8, roomIdSha256) :=
  ⟨fun _ _ _ _ _ reachable _ prepares => reachable.commit_refused_iff prepares,
    fun _ _ _ _ run => run.ownIdentity.entries⟩

theorem emptyRoom_reachable (sha256 : List UInt8 → Digest) (n : Nat) : (emptyRoom n).Reachable sha256 :=
  ⟨_, _, _, _, emptyRoom_run sha256 anyIssued n, rfl⟩

theorem emptyRoom_identity_ne : (emptyRoom 1).identity ≠ (emptyRoom 0).identity := by
  intro same
  have digests : labelDigest 1 = labelDigest 0 := congrArg Prod.snd same
  have labels : 1 = 0 := labelDigest_inj (by omega) (by omega) digests
  omega

/-- Once the committing room has its first event, the same foreign event is
refused. -/
theorem foreign_commit_refused_oneNote : ∃ history s,
    RoomRun Sha256.digest anyIssued (emptyRoom 0).roomHandle8 (emptyRoom 0).roomIdSha256 history s ∧
      Apart (emptyRoom 1) s.writer (workNote 0) ∧
      (s.writer.commit ⟨(emptyRoom 1).stamp Sha256.digest (workNote 0)⟩).2 = s.writer := by
  obtain ⟨history, s, run, _, writer⟩ := oneNote_run Sha256.digest anyIssued
  have apart : Apart (emptyRoom 1) s.writer (workNote 0) := by
    rw [writer]
    exact .inr (.inr (.inl (by decide)))
  have different : (emptyRoom 1).identity ≠ s.writer.identity := by
    rw [writer]
    exact emptyRoom_identity_ne
  exact ⟨history, s, run, apart, (((foreign_commit_refused_iff Sha256.digest).1 _ _ _ _
    (emptyRoom_reachable _ 1) ⟨_, _, _, _, run, rfl⟩ different (emptyRoom_prepare _ 1 0)).mpr apart).2⟩

/-- Two empty rooms stand at the same position, so the second publishes the
first one's event under the first one's name, whatever the hash. -/
theorem foreign_commit_accepted : ¬ ∃ sha256 : List UInt8 → Digest,
    ∀ (preparing committing : RoomWriter) (draft : EventDraft) (prepared : PreparedEvent),
    preparing.Reachable sha256 → committing.Reachable sha256 → preparing.identity ≠ committing.identity →
    preparing.prepare sha256 draft = .ok prepared →
    (∀ event, (committing.commit prepared).1 ≠ .ok (.committed event)) ∧
      (committing.commit prepared).2 = committing := by
  rintro ⟨sha256, refused⟩
  have commits : (emptyRoom 0).commit ⟨(emptyRoom 1).stamp sha256 (workNote 0)⟩ =
      (.ok (.committed ((emptyRoom 1).stamp sha256 (workNote 0))),
        (emptyRoom 0).push ((emptyRoom 1).stamp sha256 (workNote 0))) :=
    RoomWriter.commit_committed (emptyRoom_no_key 0 _) (emptyRoom_not_full 0) ⟨rfl, rfl⟩ (emptyRoom_countable 0)
  refine (refused _ _ _ _ (emptyRoom_reachable sha256 1) (emptyRoom_reachable sha256 0) emptyRoom_identity_ne
    (emptyRoom_prepare sha256 1 0)).1 ((emptyRoom 1).stamp sha256 (workNote 0)) ?_
  rw [commits]

end Asolaria.ReflectionRoom
