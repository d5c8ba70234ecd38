import Asolaria.ReflectionRoom.RoomRun
import Mathlib.Data.List.Nodup

namespace Asolaria.ReflectionRoom
open Library
open Library.Sha256 (Digest)

variable {sha256 : List UInt8 → Digest} {outside : RoomWriter → PreparedEvent → Prop}
  {roomHandle8 : Handle8} {roomIdSha256 : Digest} {history : RoomHistory} {s : RoomSystem}

/-- Preparing and at once committing an admissible draft with a new key
publishes its stamp. -/
theorem RoomRun.publish (run : RoomRun sha256 outside roomHandle8 roomIdSha256 history s) {draft : EventDraft}
    (rules : AdmissionRules draft s.writer.KnowsParent) (noKey : ¬ s.writer.HasKey draft.idempotencyKey)
    (room : ¬ s.writer.Full) (fits : s.writer.nextSequence.toNat + 1 < 2 ^ 64) :
    ∃ later t, RoomRun sha256 outside roomHandle8 roomIdSha256 (history ++ later) t ∧
      committedEvents later = [s.writer.stamp sha256 draft] ∧ gulpSeals later = [] ∧
      t.writer = s.writer.push (s.writer.stamp sha256 draft) := by
  obtain ⟨account, _⟩ := run.accounted
  obtain ⟨first, created, run⟩ := run
  have total := account.total
  have next := account.next
  have prepares : s.writer.prepare sha256 draft = .ok ⟨s.writer.stamp sha256 draft⟩ :=
    RoomWriter.prepare_iff.mpr ⟨rules, .inl room, fits, rfl⟩
  have commits : s.writer.commit ⟨s.writer.stamp sha256 draft⟩ =
      (.ok (.committed (s.writer.stamp sha256 draft)), s.writer.push (s.writer.stamp sha256 draft)) :=
    RoomWriter.commit_committed noKey room ⟨rfl, rfl⟩ ⟨fits, by omega⟩
  have prepared := Run.next run (RoomStep.prepare s draft)
  rw [prepares] at prepared
  have offered : (⟨s.writer.stamp sha256 draft⟩ : PreparedEvent) ∈
      s.held ++ (Except.ok (ε := RoomError) ⟨s.writer.stamp sha256 draft⟩).toOption.toList := by
    simp [Except.toOption]
  have committed := Run.next prepared (RoomStep.commit _ (.inl offered))
  rw [commits, List.append_assoc] at committed
  exact ⟨_, _, ⟨first, created, committed⟩, rfl, rfl, rfl⟩

/-- A client alone fills the window up to its capacity: drafts that need no
parent and have distinct new keys are all committed, in order. -/
theorem RoomRun.publish_all (drafts : List EventDraft)
    (run : RoomRun sha256 outside roomHandle8 roomIdSha256 history s)
    (rules : ∀ draft ∈ drafts, AdmissionRules draft fun _ => False)
    (distinct : (drafts.map (·.idempotencyKey)).Nodup)
    (noKey : ∀ draft ∈ drafts, ¬ s.writer.HasKey draft.idempotencyKey)
    (room : s.writer.recent.length + drafts.length ≤ 2000)
    (fits : s.writer.nextSequence.toNat + drafts.length < 2 ^ 64) :
    ∃ later t, RoomRun sha256 outside roomHandle8 roomIdSha256 (history ++ later) t ∧
      (committedEvents later).map (·.draft) = drafts ∧ gulpSeals later = [] ∧
      t.writer.recent = s.writer.recent ++ committedEvents later := by
  induction drafts generalizing history s with
  | nil => exact ⟨[], s, by simpa using run, rfl, rfl, by simp [committedEvents]⟩
  | cons draft drafts ih =>
    simp only [List.length_cons] at room fits
    have space : ¬ s.writer.Full := by
      intro full
      change 2000 ≤ s.writer.recent.length at full
      omega
    obtain ⟨one, middle, run, published, noSeal, writer⟩ := run.publish
      ((rules draft (List.mem_cons_self ..)).mono fun _ _ known => known.elim)
      (noKey draft (List.mem_cons_self ..)) space (by omega)
    have recent : middle.writer.recent = s.writer.recent ++ [s.writer.stamp sha256 draft] := by
      rw [writer]
      rfl
    have sequence : middle.writer.nextSequence.toNat = s.writer.nextSequence.toNat + 1 := by
      rw [writer]
      exact toNat_add_of_lt (show s.writer.nextSequence.toNat + (1 : UInt64).toNat < 2 ^ 64 by simp; omega)
    rw [List.map_cons, List.nodup_cons] at distinct
    have absent : ∀ other ∈ drafts, ¬ middle.writer.HasKey other.idempotencyKey := by
      rintro other member ⟨event, present, same⟩
      rw [recent] at present
      rcases List.mem_append.mp present with old | new
      · exact noKey other (List.mem_cons_of_mem _ member) ⟨event, old, same⟩
      · rw [List.mem_singleton.mp new] at same
        exact distinct.1 (List.mem_map.mpr ⟨other, member, same.symm⟩)
    obtain ⟨later, t, run, drafted, noSeals, final⟩ := ih run
      (fun other member => rules other (List.mem_cons_of_mem _ member)) distinct.2 absent
      (by rw [recent, List.length_append, List.length_singleton]; omega) (by omega)
    refine ⟨one ++ later, t, by rwa [← List.append_assoc], ?_, ?_, ?_⟩
    · rw [committedEvents_append, published, List.map_append, drafted]
      rfl
    · rw [gulpSeals_append, noSeal, noSeals]
      rfl
    · rw [final, recent, committedEvents_append, published, List.append_assoc]

/-- A full window is released by one seal with a distilled product. -/
theorem RoomRun.releaseWindow (run : RoomRun sha256 outside roomHandle8 roomIdSha256 history s) {product : Digest}
    (full : s.writer.recent.length = 2000) (present : product ≠ genesisSha256)
    (fits : s.writer.totalGulps.toNat + 1 < 2 ^ 64) :
    ∃ later t, RoomRun sha256 outside roomHandle8 roomIdSha256 (history ++ later) t ∧
      committedEvents later = [] ∧ gulpSeals later = [s.writer.gulpSeal sha256 product] ∧ t.writer = s.writer.release := by
  obtain ⟨first, created, run⟩ := run
  have ready : s.writer.recent.length.toUInt32 = activeEnvelopeWindow := by rw [full]; rfl
  have released := Run.next run (RoomStep.sealGulp s product)
  rw [RoomWriter.sealGulp_sealed ready present fits] at released
  exact ⟨_, _, ⟨first, created, released⟩, rfl, rfl, rfl⟩

/-- Digests that tell small numbers apart, all different from the marker. -/
def labelDigest (n : Nat) : Digest :=
  Vector.ofFn fun i => if i.val = 0 then 1 else if i.val = 1 then UInt8.ofNat (n / 256) else if i.val = 2 then
    UInt8.ofNat n else 0

theorem labelDigest_ne_genesis (n : Nat) : labelDigest n ≠ genesisSha256 := by
  intro same
  have first := congrArg (fun digest : Digest => digest[0]) same
  simp [labelDigest, genesisSha256] at first

theorem labelDigest_inj {m n : Nat} (mRange : m < 65536) (nRange : n < 65536)
    (same : labelDigest m = labelDigest n) : m = n := by
  have high := congrArg (fun digest : Digest => digest[1].toNat) same
  have low := congrArg (fun digest : Digest => digest[2].toNat) same
  simp [labelDigest] at high low
  omega

/-- A work note as the room's tests draft it, numbered by its key. -/
def workNote (n : Nat) : EventDraft where
  kind := .workNote
  sourceHandle8 := #v[115, 111, 117, 114, 99, 101, 48, 49]
  sourcePidSha256 := labelDigest n
  targetHandle8 := #v[116, 97, 114, 103, 101, 116, 48, 49]
  targetPidSha256 := labelDigest n
  verbSha256 := labelDigest n
  timestampNs := 1
  parentSha256 := genesisSha256
  body := ⟨100, 64, labelDigest n⟩
  selectorDims := 60
  selectorTupleSha256 := labelDigest n
  authority := .measured
  accessLevel := .federation
  piiState := .none
  ownerPidSha256 := genesisSha256
  idempotencyKey := labelDigest n

theorem workNote_rules (n : Nat) (known : Digest → Prop) : AdmissionRules (workNote n) known where
  body := by simp [workNote]
  bodyHash := labelDigest_ne_genesis n
  key := labelDigest_ne_genesis n
  selector := labelDigest_ne_genesis n
  dims := by simp [workNote]
  pii := fun carries => absurd rfl carries
  owner := by simp [workNote]
  parent := by simp [workNote]

/-- A room named by a number, before its first event. -/
def emptyRoom (n : Nat) : RoomWriter :=
  ⟨#v[114, 111, 111, 109, 48, 48, 48, 49], labelDigest n, 1, genesisSha256, [], 0, 0⟩

theorem emptyRoom_run (sha256 : List UInt8 → Digest) (outside : RoomWriter → PreparedEvent → Prop) (n : Nat) :
    RoomRun sha256 outside (emptyRoom n).roomHandle8 (emptyRoom n).roomIdSha256 [] ⟨emptyRoom n, []⟩ := by
  refine ⟨emptyRoom n, ?_, .start⟩
  have present : ¬ isZeroSha (emptyRoom n).roomIdSha256 = true :=
    fun zero => labelDigest_ne_genesis n (isZeroSha_iff.mp zero)
  rw [RoomWriter.new, if_neg present]
  rfl

theorem emptyRoom_no_key (n : Nat) (key : Digest) : ¬ (emptyRoom n).HasKey key := by
  rintro ⟨event, member, _⟩
  cases member

theorem emptyRoom_not_full (n : Nat) : ¬ (emptyRoom n).Full := by
  change ¬ 2000 ≤ 0
  omega

theorem emptyRoom_countable (n : Nat) : (emptyRoom n).Countable := by
  refine ⟨?_, ?_⟩
  · change 1 + 1 < 2 ^ 64
    omega
  · change 0 + 1 < 2 ^ 64
    omega

theorem emptyRoom_prepare (sha256 : List UInt8 → Digest) (n k : Nat) :
    (emptyRoom n).prepare sha256 (workNote k) = .ok ⟨(emptyRoom n).stamp sha256 (workNote k)⟩ :=
  RoomWriter.prepare_iff.mpr ⟨workNote_rules k _, .inl (emptyRoom_not_full n), (emptyRoom_countable n).1, rfl⟩

/-- The shortest run that commits an event. -/
theorem oneNote_run (sha256 : List UInt8 → Digest) (outside : RoomWriter → PreparedEvent → Prop) :
    ∃ history s, RoomRun sha256 outside (emptyRoom 0).roomHandle8 (emptyRoom 0).roomIdSha256 history s ∧
      committedEvents history = [(emptyRoom 0).stamp sha256 (workNote 0)] ∧
      s.writer = (emptyRoom 0).push ((emptyRoom 0).stamp sha256 (workNote 0)) := by
  obtain ⟨later, t, run, published, _, writer⟩ := (emptyRoom_run sha256 outside 0).publish (workNote_rules 0 _)
    (emptyRoom_no_key 0 _) (emptyRoom_not_full 0) (emptyRoom_countable 0).1
  exact ⟨_, t, run, published, writer⟩

/-- Behind the first note the next one is neither known nor shut out. -/
theorem oneNote_open {writer : RoomWriter} (recent : writer.recent = [(emptyRoom 0).stamp sha256 (workNote 0)]) :
    ¬ writer.HasKey (workNote 1).idempotencyKey ∧ ¬ writer.Full := by
  refine ⟨?_, ?_⟩
  · rintro ⟨event, member, same⟩
    rw [recent, List.mem_singleton] at member
    rw [member] at same
    exact absurd (labelDigest_inj (by decide) (by decide) same) (by decide)
  · change ¬ 2000 ≤ writer.recent.length
    rw [recent, List.length_singleton]
    decide

/-- A peer review of an event, after the first note. -/
def reviewOf (parent : CommittedEvent) : EventDraft :=
  { workNote 1 with kind := .peerReview, parentSha256 := parent.fullSha256 }

/-- A run that commits a note and a review of it. -/
theorem reviewedNote_run (outside : RoomWriter → PreparedEvent → Prop) {note : CommittedEvent}
    (stamped : (emptyRoom 0).stamp sha256 (workNote 0) = note) (nonzero : note.fullSha256 ≠ genesisSha256) :
    ∃ history s review, RoomRun sha256 outside (emptyRoom 0).roomHandle8 (emptyRoom 0).roomIdSha256 history s ∧
      committedEvents history = [note, review] ∧ review.draft = reviewOf note := by
  obtain ⟨history, s, run, events, writer⟩ := oneNote_run sha256 outside
  rw [stamped] at events writer
  have recent : s.writer.recent = [note] := by rw [writer]; rfl
  have rules : AdmissionRules (reviewOf note) s.writer.KnowsParent := by
    refine { workNote_rules 1 s.writer.KnowsParent with parent := fun _ => ⟨nonzero, .inr ⟨note, ?_, rfl⟩⟩ }
    rw [recent]
    exact List.mem_singleton_self note
  obtain ⟨noKey, room⟩ := oneNote_open (recent.trans (congrArg (fun event => [event]) stamped.symm))
  have fits : s.writer.nextSequence.toNat + 1 < 2 ^ 64 := by
    rw [writer]
    exact (by decide : (1 + 1 : UInt64).toNat + 1 < 2 ^ 64)
  obtain ⟨later, t, run, published, _, _⟩ := run.publish rules noKey room fits
  exact ⟨_, t, _, run, by rw [committedEvents_append, events, published]; rfl, rfl⟩

theorem firstNote_hash : ((emptyRoom 0).stamp Sha256.digest (workNote 0)).fullSha256 ≠ genesisSha256 := by
  decide +kernel

/-- A run in which a note is committed that was prepared before its rival. -/
theorem rivalNotes_run (sha256 : List UInt8 → Digest) (outside : RoomWriter → PreparedEvent → Prop) :
    ∃ before transition after s,
      RoomRun sha256 outside (emptyRoom 0).roomHandle8 (emptyRoom 0).roomIdSha256 (before ++ transition :: after) s ∧
      transition.label = .prepare (workNote 1) (.ok ⟨(emptyRoom 0).stamp sha256 (workNote 1)⟩) ∧
      committedEvents (before ++ transition :: after) = [(emptyRoom 0).stamp sha256 (workNote 0)] ∧
      committedEvents after = [(emptyRoom 0).stamp sha256 (workNote 0)] ∧
      s.writer = (emptyRoom 0).push ((emptyRoom 0).stamp sha256 (workNote 0)) := by
  obtain ⟨first, created, run⟩ := emptyRoom_run sha256 outside 0
  have commits : (emptyRoom 0).commit ⟨(emptyRoom 0).stamp sha256 (workNote 0)⟩ =
      (.ok (.committed ((emptyRoom 0).stamp sha256 (workNote 0))),
        (emptyRoom 0).push ((emptyRoom 0).stamp sha256 (workNote 0))) :=
    RoomWriter.commit_committed (emptyRoom_no_key 0 _) (emptyRoom_not_full 0) ⟨rfl, rfl⟩ (emptyRoom_countable 0)
  have prepared := Run.next run (RoomStep.prepare _ (workNote 0))
  rw [emptyRoom_prepare] at prepared
  have rival := Run.next prepared (RoomStep.prepare _ (workNote 1))
  simp only [emptyRoom_prepare] at rival
  have committed := Run.next rival (RoomStep.commit _ (.inl List.mem_cons_self))
  simp only [commits, List.append_assoc] at committed
  exact ⟨[_], _, [_], _, ⟨first, created, committed⟩, rfl, rfl, rfl, rfl⟩

/-- The shortest run that seals a window: 2,000 notes and one seal. -/
theorem oneWindow_run (sha256 : List UInt8 → Digest) (outside : RoomWriter → PreparedEvent → Prop) :
    ∃ history s, RoomRun sha256 outside (emptyRoom 0).roomHandle8 (emptyRoom 0).roomIdSha256 history s ∧
      (committedEvents history).map (·.draft) = (List.range 2000).map workNote ∧ (gulpSeals history).length = 1 ∧
      s.writer.recent = [] := by
  have distinct : (((List.range 2000).map workNote).map (·.idempotencyKey)).Nodup := by
    rw [List.map_map]
    refine List.Nodup.map_on ?_ List.nodup_range
    intro m mBound n nBound same
    rw [List.mem_range] at mBound nBound
    exact labelDigest_inj (by omega) (by omega) same
  obtain ⟨notes, filled, run, drafts, noSeal, recent⟩ := (emptyRoom_run sha256 outside 0).publish_all
    ((List.range 2000).map workNote)
    (by intro draft member; obtain ⟨n, _, rfl⟩ := List.mem_map.mp member; exact workNote_rules n _)
    distinct (fun _ _ => emptyRoom_no_key 0 _) (by simp [emptyRoom]) (by simp [emptyRoom])
  rw [List.nil_append] at run
  have events : (committedEvents notes).length = 2000 := by simpa using congrArg List.length drafts
  have full : filled.writer.recent.length = 2000 := by simpa [recent, emptyRoom] using events
  have gulps : filled.writer.totalGulps.toNat = 0 := by simpa [noSeal] using run.accounted.1.gulps
  obtain ⟨last, t, run, noEvent, sealed, writer⟩ := run.releaseWindow full (labelDigest_ne_genesis 0) (by omega)
  exact ⟨_, t, run, by rw [committedEvents_append, noEvent, List.append_nil, drafts],
    by rw [gulpSeals_append, noSeal, sealed]; rfl, by rw [writer]; rfl⟩

end Asolaria.ReflectionRoom
