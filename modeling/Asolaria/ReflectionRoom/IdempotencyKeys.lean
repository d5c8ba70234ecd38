import Asolaria.ReflectionRoom.SequentialClient
import Mathlib.Data.List.Induction

namespace Asolaria.ReflectionRoom
open Library
open Library.Sha256 (Digest)

variable {sha256 : List UInt8 → Digest} {outside : RoomWriter → PreparedEvent → Prop}
  {roomHandle8 : Handle8} {roomIdSha256 : Digest} {history : RoomHistory} {s : RoomSystem}

/-- Once an event was committed for a key, every later commit of that key
answers with that same event or an error. -/
def KeysCommitOnce (history : RoomHistory) : Prop :=
  ∀ before transition after prepared reply, history = before ++ transition :: after →
    transition.label = .commit prepared reply → ∀ original ∈ committedEvents before,
    original.draft.idempotencyKey = prepared.event.draft.idempotencyKey →
    reply = .ok (.duplicate original) ∨ ∃ error, reply = .error error

/-- A commit presents a key whose original was sealed away: the key was
committed before, the active window no longer holds it, and the event itself
stands at the writer's position with room in the window. -/
def LapsedRetry (log : List CommittedEvent) (w : RoomWriter) (prepared : PreparedEvent) : Prop :=
  (∃ original ∈ log, original.draft.idempotencyKey = prepared.event.draft.idempotencyKey) ∧
    ¬ w.HasKey prepared.event.draft.idempotencyKey ∧ ¬ w.Full ∧ w.Fresh prepared

def NoLapsedRetry (history : RoomHistory) : Prop :=
  ∀ before transition after prepared reply, history = before ++ transition :: after →
    transition.label = .commit prepared reply →
    ¬ LapsedRetry (committedEvents before) transition.before.writer prepared

/-- Every published event brings a key that the log did not have yet. -/
def NewKeys (history : RoomHistory) : Prop :=
  ∀ before transition after event, history = before ++ transition :: after →
    transition.label.committed? = some event → ∀ original ∈ committedEvents before,
    original.draft.idempotencyKey ≠ event.draft.idempotencyKey

theorem NewKeys.nodup (new : NewKeys history) : ((committedEvents history).map (·.draft.idempotencyKey)).Nodup := by
  induction history using List.reverseRecOn with
  | nil => exact List.nodup_nil
  | append_singleton history transition ih =>
    have distinct : ((committedEvents history).map (·.draft.idempotencyKey)).Nodup := by
      refine ih fun before recorded after event split => ?_
      exact new before recorded (after ++ [transition]) event (by rw [split, List.append_assoc]; rfl)
    rw [committedEvents_append, committedEvents_singleton]
    cases found : transition.label.committed? with
    | none => simpa using distinct
    | some event =>
      simp only [Option.toList_some, List.map_append, List.map_cons, List.map_nil]
      refine List.nodup_append.mpr ⟨distinct, List.pairwise_singleton _ _, ?_⟩
      intro key member other single same
      obtain ⟨original, present, rfl⟩ := List.mem_map.mp member
      rw [List.mem_singleton.mp single] at same
      exact new history transition [] event rfl found original present same

theorem RoomRun.newKeys_of_noLapsedRetry (run : RoomRun sha256 outside roomHandle8 roomIdSha256 history s)
    (none : NoLapsedRetry history) : NewKeys history := by
  intro before transition after event recorded found original member same
  obtain ⟨label, noKey, room, fresh⟩ := (run.before recorded).2.published found
  exact none before transition after ⟨event⟩ _ recorded label ⟨⟨original, member, same⟩, noKey, room, fresh⟩

theorem RoomRun.newKeys_of_commitOnce (run : RoomRun sha256 outside roomHandle8 roomIdSha256 history s)
    (once : KeysCommitOnce history) : NewKeys history := by
  intro before transition after event recorded found original member same
  obtain ⟨label, _⟩ := (run.before recorded).2.published found
  rcases once before transition after ⟨event⟩ _ recorded label original member same with duplicate | ⟨_, error⟩
  · cases duplicate
  · cases error

/-- A run commits every key at most once exactly when no commit in it is a
lapsed retry, one that straddles the seal of its original's window. -/
theorem RoomRun.keys_commit_once_iff (run : RoomRun sha256 anyIssued roomHandle8 roomIdSha256 history s) :
    KeysCommitOnce history ↔ NoLapsedRetry history := by
  constructor
  · rintro once before transition after prepared reply recorded commits ⟨⟨original, member, same⟩, noKey, room, fresh⟩
    obtain ⟨earlier, step⟩ := run.before recorded
    obtain ⟨account, issued⟩ := earlier.accounted
    obtain ⟨result, admitted⟩ := step.commit_reply commits
    have range := (admitted.elim (issued _) And.left).sequence_fits
    have total := account.total
    have next := account.next
    have countable : transition.before.writer.Countable := by
      rw [fresh.1] at range
      exact ⟨range, by omega⟩
    rw [RoomWriter.commit_committed noKey room fresh countable] at result
    rcases once before transition after prepared reply recorded commits original member same with duplicate | ⟨_, error⟩
    · cases result.symm.trans duplicate
    · cases result.symm.trans error
  · intro none before transition after prepared reply recorded commits original member same
    obtain ⟨earlier, step⟩ := run.before recorded
    obtain ⟨account, _⟩ := earlier.accounted
    obtain ⟨rfl, _⟩ := step.commit_reply commits
    have distinct : ((committedEvents before).map (·.draft.idempotencyKey)).Nodup := by
      have whole := (run.newKeys_of_noLapsedRetry none).nodup
      rw [recorded, committedEvents_append, List.map_append] at whole
      exact whole.of_append_left
    have reached := transition.before.writer.commit_case prepared
    generalize transition.before.writer.commit prepared = outcome at reached
    cases reached with
    | duplicate present key =>
      have equal := List.inj_on_of_nodup_map distinct (account.recent_mem present) member (key.trans same.symm)
      exact .inl (by rw [equal])
    | committed noKey room fresh _ =>
      exact absurd ⟨⟨original, member, same⟩, noKey, room, fresh⟩ (none before transition after prepared _ recorded commits)
    | full | stale | overflow => exact .inr ⟨_, rfl⟩

theorem keys_commit_once_iff_oneWindow : ∃ history s,
    RoomRun Sha256.digest anyIssued (emptyRoom 0).roomHandle8 (emptyRoom 0).roomIdSha256 history s ∧
      (committedEvents history).length = 2000 ∧ (KeysCommitOnce history ↔ NoLapsedRetry history) := by
  obtain ⟨history, s, run, drafts, _, _⟩ := oneWindow_run Sha256.digest anyIssued
  exact ⟨history, s, run, by simpa using congrArg List.length drafts, run.keys_commit_once_iff⟩

/-- After one full window is sealed, the key of its first note is committed
a second time: deduplication forgets what the seal released. -/
theorem sealed_key_committed_again : ¬ ∃ sha256, ∀ roomHandle8 roomIdSha256 history s,
    RoomRun sha256 ownOnly roomHandle8 roomIdSha256 history s → KeysCommitOnce history := by
  rintro ⟨sha256, once⟩
  obtain ⟨history, s, run, drafts, _, empty⟩ := oneWindow_run sha256 ownOnly
  have next := run.accounted.1.next
  have events : (committedEvents history).length = 2000 := by simpa using congrArg List.length drafts
  obtain ⟨later, t, run, published, _, _⟩ := run.publish (workNote_rules 0 _)
    (by simp [RoomWriter.HasKey, empty]) (by simp [RoomWriter.Full, empty, activeEnvelopeWindow]) (by omega)
  have distinct := (run.newKeys_of_commitOnce (once _ _ _ _ run)).nodup
  rw [committedEvents_append, published, List.map_append, List.nodup_append] at distinct
  refine distinct.2.2 (workNote 0).idempotencyKey ?_ _ (List.mem_singleton.mpr rfl) rfl
  have first : workNote 0 ∈ (committedEvents history).map (·.draft) := by
    rw [drafts]
    exact List.mem_map_of_mem (List.mem_range.mpr (by omega))
  obtain ⟨event, member, same⟩ := List.mem_map.mp first
  exact List.mem_map.mpr ⟨event, member, by rw [same]⟩

end Asolaria.ReflectionRoom
