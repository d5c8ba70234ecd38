import Asolaria.ReflectionRoom.Writer
import Asolaria.Library.Guard

namespace Asolaria.ReflectionRoom
open Library
open Library.Sha256 (Digest)

theorem isZeroSha_iff {value : Digest} : isZeroSha value = true ↔ value = genesisSha256 := by
  rw [isZeroSha, List.all_eq_true, ← Vector.toList_inj, genesisSha256, Vector.toList_replicate]
  simp only [beq_iff_eq, List.eq_replicate_iff, Vector.length_toList, true_and]

theorem RoomEventKind.requiresParent_iff {kind : RoomEventKind} : kind.requiresParent = true ↔
    kind = .translatedNote ∨ kind = .selfReflection ∨ kind = .peerReview ∨ kind = .finalResult := by
  cases kind <;> decide

/-- What a draft must satisfy before it can be prepared, relative to the
digests that count as known parents. -/
structure AdmissionRules (draft : EventDraft) (known : Digest → Prop) : Prop where
  body : draft.body.length ≠ 0
  bodyHash : draft.body.sha256 ≠ genesisSha256
  key : draft.idempotencyKey ≠ genesisSha256
  selector : draft.selectorTupleSha256 ≠ genesisSha256
  dims : 60 ≤ draft.selectorDims.toNat
  pii : draft.piiState ≠ .none → draft.accessLevel = .ownerPrivate
  owner : draft.accessLevel = .ownerPrivate → draft.ownerPidSha256 ≠ genesisSha256
  parent : draft.kind = .translatedNote ∨ draft.kind = .selfReflection ∨ draft.kind = .peerReview ∨
    draft.kind = .finalResult → draft.parentSha256 ≠ genesisSha256 ∧ known draft.parentSha256

theorem AdmissionRules.mono {draft : EventDraft} {known more : Digest → Prop} (rules : AdmissionRules draft known)
    (widen : ∀ digest, digest ≠ genesisSha256 → known digest → more digest) : AdmissionRules draft more :=
  { rules with
    parent := fun required =>
      have ⟨nonzero, found⟩ := rules.parent required
      ⟨nonzero, widen _ nonzero found⟩ }

namespace RoomWriter

/-- Parents a writer can still see: its head and its active window. -/
def KnowsParent (w : RoomWriter) (digest : Digest) : Prop :=
  digest = w.headSha256 ∨ ∃ event ∈ w.recent, event.fullSha256 = digest

/-- The draft check is exactly the admission rules over the visible parents. -/
theorem validateDraft_iff {w : RoomWriter} {draft : EventDraft} :
    w.validateDraft draft = .ok () ↔ AdmissionRules draft w.KnowsParent := by
  have dims : draft.selectorDims < minSelectorDims ↔ ¬ 60 ≤ draft.selectorDims.toNat := by
    rw [UInt16.lt_iff_toNat_lt, Nat.not_le]
    rfl
  have known : (w.recent.any (·.fullSha256 == draft.parentSha256)) = true ↔
      ∃ event ∈ w.recent, event.fullSha256 = draft.parentSha256 := by
    simp only [List.any_eq_true, beq_iff_eq]
  have parents : (if draft.kind.requiresParent = true then
        if isZeroSha draft.parentSha256 = true then Except.error RoomError.parentMissing
        else if draft.parentSha256 = w.headSha256 ∨ (w.recent.any (·.fullSha256 == draft.parentSha256)) = true then
          .ok ()
        else .error .parentNotCommitted
      else .ok ()) = .ok () ↔
      (draft.kind.requiresParent = true → draft.parentSha256 ≠ genesisSha256 ∧ w.KnowsParent draft.parentSha256) := by
    by_cases required : draft.kind.requiresParent = true
    · rw [if_pos required, guard_ok_iff, isZeroSha_iff, KnowsParent, ← known]
      split_ifs with found
      · simp only [required, found, and_true, forall_const, ne_eq]
      · simp only [required, found, and_false, forall_const]
    · simp [required]
  unfold validateDraft
  iterate 7 rw [guard_ok_iff]
  rw [parents]
  simp only [isZeroSha_iff, dims, not_not, RoomEventKind.requiresParent_iff]
  constructor
  · rintro ⟨body, bodyHash, key, selector, large, pii, owner, parent⟩
    exact ⟨body, bodyHash, key, selector, large, fun carries => not_not.mp fun elsewhere => pii ⟨elsewhere, carries⟩,
      fun level missing => owner ⟨level, missing⟩, parent⟩
  · rintro ⟨body, bodyHash, key, selector, large, pii, owner, parent⟩
    exact ⟨body, bodyHash, key, selector, large, fun bad => bad.1 (pii bad.2), fun bad => owner bad.1 bad.2, parent⟩

def HasKey (w : RoomWriter) (key : Digest) : Prop :=
  ∃ event ∈ w.recent, event.draft.idempotencyKey = key

def Full (w : RoomWriter) : Prop := activeEnvelopeWindow.toNat ≤ w.recent.length

/-- The event `prepare` stamps onto a draft at the writer's position. -/
def stamp (sha256 : List UInt8 → Digest) (w : RoomWriter) (draft : EventDraft) : CommittedEvent where
  sequence := w.nextSequence
  roomHandle8 := w.roomHandle8
  roomIdSha256 := w.roomIdSha256
  previousSha256 := w.headSha256
  fullSha256 := eventSha256 sha256 w.roomIdSha256 w.roomHandle8 w.nextSequence w.headSha256 draft
  draft

instance (w : RoomWriter) (key : Digest) : Decidable (w.HasKey key) :=
  inferInstanceAs (Decidable (∃ event ∈ w.recent, event.draft.idempotencyKey = key))

theorem any_key_iff {w : RoomWriter} {key : Digest} :
    (w.recent.any (·.draft.idempotencyKey == key)) = true ↔ w.HasKey key := by
  simp only [List.any_eq_true, beq_iff_eq, HasKey]

/-- Preparation succeeds on exactly the admissible drafts that fit the
window, and never at the last representable sequence number. -/
theorem prepare_iff {sha256 : List UInt8 → Digest} {w : RoomWriter} {draft : EventDraft} {prepared : PreparedEvent} :
    w.prepare sha256 draft = .ok prepared ↔
      AdmissionRules draft w.KnowsParent ∧ (¬ w.Full ∨ w.HasKey draft.idempotencyKey) ∧
        w.nextSequence.toNat + 1 < 2 ^ 64 ∧ prepared = ⟨w.stamp sha256 draft⟩ := by
  have range := w.nextSequence.toNat_lt
  unfold prepare
  rw [← validateDraft_iff]
  cases check : w.validateDraft draft with
  | error error => simp
  | ok _ =>
    simp only [any_key_iff, checkedAdd_zero, true_and]
    by_cases crowded : activeEnvelopeWindow.toNat ≤ w.recent.length ∧ ¬ w.HasKey draft.idempotencyKey
    · rw [if_pos crowded]
      simp only [reduceCtorEq, false_iff, not_and]
      exact fun room => absurd room (by simpa [Full] using crowded)
    · rw [if_neg crowded]
      have room : ¬ w.Full ∨ w.HasKey draft.idempotencyKey := by
        unfold Full
        tauto
      by_cases last : w.nextSequence.toNat = 2 ^ 64 - 1
      · rw [if_pos last]
        simp only [reduceCtorEq, false_iff, not_and]
        intro _ fits
        omega
      · rw [if_neg last]
        have fits : w.nextSequence.toNat + 1 < 2 ^ 64 := by omega
        simp only [Except.ok.injEq, room, fits, true_and, stamp]
        exact eq_comm

/-- A prepared event is committable only at the position it was stamped at. -/
def Fresh (w : RoomWriter) (prepared : PreparedEvent) : Prop :=
  prepared.event.sequence = w.nextSequence ∧ prepared.event.previousSha256 = w.headSha256

/-- The writer after publishing an event. -/
def push (w : RoomWriter) (event : CommittedEvent) : RoomWriter :=
  { w with
    recent := w.recent ++ [event]
    headSha256 := event.fullSha256
    nextSequence := w.nextSequence + 1
    totalEvents := w.totalEvents + 1 }

/-- Both counters can still be advanced. -/
def Countable (w : RoomWriter) : Prop :=
  w.nextSequence.toNat + 1 < 2 ^ 64 ∧ w.totalEvents.toNat + 1 < 2 ^ 64

/-- Everything one commit can do. Only the overflow returns, which need a
counter at its maximum, leave a changed writer behind an error. -/
inductive CommitCase (w : RoomWriter) (prepared : PreparedEvent) :
    Except RoomError CommitOutcome × RoomWriter → Prop
  | duplicate {existing} : existing ∈ w.recent →
      existing.draft.idempotencyKey = prepared.event.draft.idempotencyKey →
      CommitCase w prepared (.ok (.duplicate existing), w)
  | full : ¬ w.HasKey prepared.event.draft.idempotencyKey → w.Full →
      CommitCase w prepared (.error .activeWindowFull, w)
  | stale : ¬ w.HasKey prepared.event.draft.idempotencyKey → ¬ w.Full → ¬ w.Fresh prepared →
      CommitCase w prepared (.error .stalePreparedEvent, w)
  | committed : ¬ w.HasKey prepared.event.draft.idempotencyKey → ¬ w.Full → w.Fresh prepared → w.Countable →
      CommitCase w prepared (.ok (.committed prepared.event), w.push prepared.event)
  | overflow {after} : ¬ w.HasKey prepared.event.draft.idempotencyKey → ¬ w.Full → w.Fresh prepared →
      ¬ w.Countable → CommitCase w prepared (.error .sequenceOverflow, after)

theorem commit_case (w : RoomWriter) (prepared : PreparedEvent) : CommitCase w prepared (w.commit prepared) := by
  unfold commit
  split
  · rename_i existing found
    exact .duplicate (List.mem_of_find?_eq_some found) (by simpa using List.find?_some found)
  · rename_i missing
    have noKey : ¬ w.HasKey prepared.event.draft.idempotencyKey := by
      rintro ⟨event, member, same⟩
      exact absurd (List.find?_eq_none.mp missing event member) (by simp [same])
    split
    · rename_i full
      exact .full noKey full
    · rename_i room
      split
      · rename_i moved
        exact .stale noKey room (fun fresh => by rcases moved with moved | moved; exact moved fresh.1; exact moved fresh.2)
      · rename_i same
        have fresh : w.Fresh prepared := ⟨not_not.mp (not_or.mp same).1, not_not.mp (not_or.mp same).2⟩
        have one : (1 : UInt64).toNat = 1 := rfl
        dsimp only
        by_cases nextFits : w.nextSequence.toNat + 1 < 2 ^ 64
        · rw [checkedAdd_eq_some (by simpa only [one] using nextFits)]
          by_cases totalFits : w.totalEvents.toNat + 1 < 2 ^ 64
          · rw [checkedAdd_eq_some (by simpa only [one] using totalFits)]
            exact .committed noKey room fresh ⟨nextFits, totalFits⟩
          · rw [checkedAdd_eq_none (by simpa only [one] using Nat.not_lt.mp totalFits)]
            exact .overflow noKey room fresh (fun countable => totalFits countable.2)
        · rw [checkedAdd_eq_none (by simpa only [one] using Nat.not_lt.mp nextFits)]
          exact .overflow noKey room fresh (fun countable => nextFits countable.1)

/-- The commit guards decide publication once the counters can advance. -/
theorem commit_committed {w : RoomWriter} {prepared : PreparedEvent}
    (noKey : ¬ w.HasKey prepared.event.draft.idempotencyKey) (room : ¬ w.Full) (fresh : w.Fresh prepared)
    (countable : w.Countable) : w.commit prepared = (.ok (.committed prepared.event), w.push prepared.event) := by
  generalize result : w.commit prepared = outcome
  have reached := w.commit_case prepared
  rw [result] at reached
  cases reached with
  | duplicate member same => exact absurd ⟨_, member, same⟩ noKey
  | full _ full => exact absurd full room
  | stale _ _ moved => exact absurd fresh moved
  | committed => rfl
  | overflow _ _ _ stuck => exact absurd countable stuck

theorem commit_stale {w : RoomWriter} {prepared : PreparedEvent}
    (noKey : ¬ w.HasKey prepared.event.draft.idempotencyKey) (room : ¬ w.Full) (moved : ¬ w.Fresh prepared) :
    w.commit prepared = (.error .stalePreparedEvent, w) := by
  generalize result : w.commit prepared = outcome
  have reached := w.commit_case prepared
  rw [result] at reached
  cases reached with
  | duplicate member same => exact absurd ⟨_, member, same⟩ noKey
  | full _ full => exact absurd full room
  | stale => rfl
  | committed _ _ fresh => exact absurd fresh moved
  | overflow _ _ fresh => exact absurd fresh moved

/-- The seal a full window produces, and the writer it leaves. -/
def gulpSeal (sha256 : List UInt8 → Digest) (w : RoomWriter) (product : Digest) : GulpSeal where
  tier := gulpTier (w.totalGulps + 1)
  sealedEvents := activeEnvelopeWindow
  cumulativeEvents := w.totalEvents
  gulpIndex := w.totalGulps + 1
  checkpointIndex := (w.totalGulps + 1) / gulpsPerCheckpoint.toUInt64
  superGulpIndex := (w.totalGulps + 1) / (gulpsPerCheckpoint * checkpointsPerSuperGulp).toUInt64
  roomHeadSha256 := w.headSha256
  distilledProductSha256 := product
  sealSha256 := gulpSealSha256 sha256 w.roomIdSha256 w.headSha256 w.totalEvents (w.totalGulps + 1)
    (gulpTier (w.totalGulps + 1)) product

def release (w : RoomWriter) : RoomWriter := { w with recent := [], totalGulps := w.totalGulps + 1 }

/-- Everything one seal can do: every refusal precedes the first write. -/
inductive SealCase (sha256 : List UInt8 → Digest) (w : RoomWriter) (product : Digest) :
    Except RoomError GulpSeal × RoomWriter → Prop
  | refused (error : RoomError) : SealCase sha256 w product (.error error, w)
  | sealed : w.recent.length.toUInt32 = activeEnvelopeWindow → w.totalGulps.toNat + 1 < 2 ^ 64 →
      SealCase sha256 w product (.ok (w.gulpSeal sha256 product), w.release)

theorem sealGulp_case (sha256 : List UInt8 → Digest) (w : RoomWriter) (product : Digest) :
    SealCase sha256 w product (w.sealGulp sha256 product) := by
  unfold sealGulp
  by_cases ready : w.recent.length.toUInt32 = activeEnvelopeWindow
  · rw [if_neg (not_not.mpr ready)]
    by_cases missing : isZeroSha product = true
    · rw [if_pos missing]
      exact .refused _
    · rw [if_neg missing]
      by_cases fits : w.totalGulps.toNat + 1 < 2 ^ 64
      · rw [checkedAdd_eq_some (by simpa using fits)]
        exact .sealed ready fits
      · rw [checkedAdd_eq_none (by simpa using Nat.not_lt.mp fits)]
        exact .refused _
  · rw [if_pos ready]
    exact .refused _

theorem sealGulp_sealed {sha256 : List UInt8 → Digest} {w : RoomWriter} {product : Digest}
    (ready : w.recent.length.toUInt32 = activeEnvelopeWindow) (present : product ≠ genesisSha256)
    (fits : w.totalGulps.toNat + 1 < 2 ^ 64) :
    w.sealGulp sha256 product = (.ok (w.gulpSeal sha256 product), w.release) := by
  unfold sealGulp
  rw [if_neg (not_not.mpr ready), if_neg (fun zero => present (isZeroSha_iff.mp zero)),
    checkedAdd_eq_some (by simpa using fits)]
  rfl

end RoomWriter

end Asolaria.ReflectionRoom
