import Asolaria.ReflectionRoom.SequentialClient

namespace Asolaria.ReflectionRoom
open Library
open Library.Sha256 (Digest)

/-- An event stamped by one room right after the events of `earlier`, from a
draft that was admissible there. -/
structure Stamped (sha256 : List UInt8 → Digest) (roomHandle8 : Handle8) (roomIdSha256 : Digest)
    (earlier : List CommittedEvent) (event : CommittedEvent) : Prop where
  handle : event.roomHandle8 = roomHandle8
  identity : event.roomIdSha256 = roomIdSha256
  digest : event.fullSha256 = eventSha256 sha256 event.roomIdSha256 event.roomHandle8 event.sequence
    event.previousSha256 event.draft
  position : event.sequence.toNat = earlier.length + 1
  admitted : AdmissionRules event.draft fun digest => ∃ parent ∈ earlier, parent.fullSha256 = digest

/-- The log of a room fed only with its own preparations. Held events carry
the part of the log they were prepared against. -/
structure OwnLog (sha256 : List UInt8 → Digest) (roomHandle8 : Handle8) (roomIdSha256 : Digest)
    (log : List CommittedEvent) (s : RoomSystem) : Prop where
  handle : s.writer.roomHandle8 = roomHandle8
  identity : s.writer.roomIdSha256 = roomIdSha256
  held : ∀ prepared ∈ s.held, ∃ earlier, earlier <+: log ∧
    Stamped sha256 roomHandle8 roomIdSha256 earlier prepared.event
  entries : ∀ k (bound : k < log.length), Stamped sha256 roomHandle8 roomIdSha256 (log.take k) log[k]

variable {sha256 : List UInt8 → Digest} {roomHandle8 : Handle8} {roomIdSha256 : Digest}
  {log : List CommittedEvent} {seals : List GulpSeal} {history : RoomHistory} {s t : RoomSystem} {label : RoomLabel}

/-- Visible parents are committed events: the window is part of the log, and
a head other than the genesis marker is the digest of its last event. -/
theorem Accounted.knows_committed {w : RoomWriter} (account : Accounted log seals w) {digest : Digest}
    (nonzero : digest ≠ genesisSha256) (known : w.KnowsParent digest) :
    ∃ parent ∈ log, parent.fullSha256 = digest := by
  rcases known with atHead | ⟨parent, member, same⟩
  · rw [account.head] at atHead
    obtain ⟨parent, member, value⟩ := eventChain.exists_mem_of_head_ne (atHead ▸ nonzero)
    exact ⟨parent, member, value.trans atHead.symm⟩
  · exact ⟨parent, account.recent_mem member, same⟩

theorem OwnLog.stamp (own : OwnLog sha256 roomHandle8 roomIdSha256 log s) (account : Accounted log seals s.writer)
    {draft : EventDraft} (rules : AdmissionRules draft s.writer.KnowsParent) :
    Stamped sha256 roomHandle8 roomIdSha256 log (s.writer.stamp sha256 draft) where
  handle := own.handle
  identity := own.identity
  digest := rfl
  position := account.next
  admitted := rules.mono fun _ nonzero known => account.knows_committed nonzero known

/-- A held event at the writer's own position was prepared against the whole
current log, so nothing it was checked against has moved. -/
theorem OwnLog.stamped_of_fresh (own : OwnLog sha256 roomHandle8 roomIdSha256 log s)
    (account : Accounted log seals s.writer) {prepared : PreparedEvent} (member : prepared ∈ s.held)
    (fresh : s.writer.Fresh prepared) : Stamped sha256 roomHandle8 roomIdSha256 log prepared.event := by
  obtain ⟨earlier, isPrefix, stamped⟩ := own.held prepared member
  have length : earlier.length = log.length := by
    have position := stamped.position
    rw [fresh.1, account.next] at position
    omega
  exact isPrefix.eq_of_length length ▸ stamped

theorem OwnLog.committed (own : OwnLog sha256 roomHandle8 roomIdSha256 log s) {event : CommittedEvent}
    (stamped : Stamped sha256 roomHandle8 roomIdSha256 log event) :
    OwnLog sha256 roomHandle8 roomIdSha256 (log ++ [event]) { s with writer := s.writer.push event } where
  handle := own.handle
  identity := own.identity
  held := by
    intro prepared member
    obtain ⟨earlier, isPrefix, old⟩ := own.held prepared member
    exact ⟨earlier, isPrefix.trans (List.prefix_append log [event]), old⟩
  entries := by
    refine forall_getElem_concat
      (fun k entry => Stamped sha256 roomHandle8 roomIdSha256 ((log ++ [event]).take k) entry) ?_ ?_
    · intro k before
      rw [List.take_append_of_le_length (Nat.le_of_lt before)]
      exact own.entries k before
    · rw [List.take_left]
      exact stamped

theorem OwnLog.step (own : OwnLog sha256 roomHandle8 roomIdSha256 log s) (account : Accounted log seals s.writer)
    (issued : ∀ prepared ∈ s.held, prepared.Issued sha256) (step : RoomStep sha256 ownOnly s label t) :
    OwnLog sha256 roomHandle8 roomIdSha256 (log ++ label.committed?.toList) t := by
  have balanced := account.balanced
  cases step with
  | prepare draft =>
    cases reply : s.writer.prepare sha256 draft with
    | error error => simpa [RoomLabel.committed?, Except.toOption] using own
    | ok prepared =>
      obtain ⟨rules, _, _, rfl⟩ := RoomWriter.prepare_iff.mp reply
      refine ⟨own.handle, own.identity, ?_, ?_⟩
      · intro prepared member
        simp only [Except.toOption, Option.toList_some] at member
        rcases List.mem_append.mp member with old | new
        · simpa [RoomLabel.committed?] using own.held prepared old
        · rw [List.mem_singleton.mp new]
          exact ⟨log, by simp [RoomLabel.committed?], own.stamp account rules⟩
      · simpa [RoomLabel.committed?] using own.entries
  | @commit prepared admitted =>
    have member : prepared ∈ s.held := admitted.resolve_right fun foreign => foreign.2
    have reached := s.writer.commit_case prepared
    generalize s.writer.commit prepared = outcome at reached
    cases reached with
    | committed _ _ fresh _ => exact own.committed (own.stamped_of_fresh account member fresh)
    | overflow _ _ fresh stuck =>
      have range := (issued prepared member).sequence_fits
      rw [fresh.1] at range
      exact absurd ⟨range, by omega⟩ stuck
    | _ => simpa [RoomLabel.committed?] using own
  | sealGulp product =>
    have reached := s.writer.sealGulp_case sha256 product
    generalize s.writer.sealGulp sha256 product = outcome at reached
    cases reached with
    | refused error => simpa [RoomLabel.committed?] using own
    | sealed => simpa [RoomLabel.committed?] using ⟨own.handle, own.identity, own.held, own.entries⟩

theorem RoomRun.ownLog (run : RoomRun sha256 ownOnly roomHandle8 roomIdSha256 history s) :
    OwnLog sha256 roomHandle8 roomIdSha256 (committedEvents history) s := by
  obtain ⟨first, created, run⟩ := run
  induction run with
  | start =>
    obtain rfl := RoomWriter.new_ok created
    exact ⟨rfl, rfl, by simp, by simp [committedEvents]⟩
  | @next history s label t previous step ih =>
    obtain ⟨account, issued⟩ := RoomRun.accounted ⟨first, created, previous⟩
    simpa using ih.step account issued step

/-- The links of one hash chain: sequence numbers count from one, every event
carries the room's identity, names its predecessor's digest and is named by
the digest of its own fields. -/
structure ChainLink (sha256 : List UInt8 → Digest) (roomHandle8 : Handle8) (roomIdSha256 : Digest)
    (log : List CommittedEvent) (k : Nat) (bound : k < log.length) : Prop where
  sequence : log[k].sequence.toNat = k + 1
  identity : log[k].roomIdSha256 = roomIdSha256
  handle : log[k].roomHandle8 = roomHandle8
  previous : log[k].previousSha256 = if k = 0 then genesisSha256 else log[k - 1].fullSha256
  digest : log[k].fullSha256 = eventSha256 sha256 log[k].roomIdSha256 log[k].roomHandle8 log[k].sequence
    log[k].previousSha256 log[k].draft

/-- What `readCommittedHead` reports about a log, and the active window as
exactly its most recent part. -/
structure HeadReport (log : List CommittedEvent) (w : RoomWriter) : Prop where
  total : w.readCommittedHead.totalEvents.toNat = log.length
  next : w.readCommittedHead.nextSequence.toNat = w.readCommittedHead.totalEvents.toNat + 1
  head : w.readCommittedHead.headSha256 = (log.getLast?.map (·.fullSha256)).getD genesisSha256
  gulps : 2000 * w.readCommittedHead.totalGulps.toNat ≤ w.readCommittedHead.totalEvents.toNat
  active : w.readCommittedHead.activeEvents.toNat =
    w.readCommittedHead.totalEvents.toNat - 2000 * w.readCommittedHead.totalGulps.toNat
  bound : w.readCommittedHead.activeEvents.toNat ≤ 2000
  window : w.recent = log.drop (log.length - w.readCommittedHead.activeEvents.toNat)
  keys : (w.recent.map (·.draft.idempotencyKey)).Nodup

theorem Accounted.activeEvents {w : RoomWriter} (account : Accounted log seals w) :
    w.readCommittedHead.activeEvents.toNat = w.recent.length := by
  have capacity := account.capacity
  exact UInt32.toNat_ofNat_of_lt' (by rw [UInt32.size]; omega)

theorem Accounted.headReport {w : RoomWriter} (account : Accounted log seals w) : HeadReport log w := by
  obtain ⟨older, split, length⟩ := account.window
  have total : log.length = 2000 * seals.length + w.recent.length := by rw [split, List.length_append, length]
  have active := account.activeEvents
  have events : w.readCommittedHead.totalEvents.toNat = log.length := account.total
  have gulps : w.readCommittedHead.totalGulps.toNat = seals.length := account.gulps
  refine ⟨events, ?_, account.head, by omega, by omega, active ▸ account.capacity, ?_, account.keys⟩
  · rw [events]
    exact account.next
  · have older' : log.length - w.readCommittedHead.activeEvents.toNat = older.length := by omega
    rw [older', split, List.drop_left]

/-- In every run of a room on its own preparations the committed events form
one hash chain, and the committed head reports exactly that chain. -/
theorem RoomRun.hash_chain (run : RoomRun sha256 ownOnly roomHandle8 roomIdSha256 history s) :
    (∀ k (bound : k < (committedEvents history).length),
      ChainLink sha256 roomHandle8 roomIdSha256 (committedEvents history) k bound) ∧
    HeadReport (committedEvents history) s.writer := by
  obtain ⟨account, _⟩ := run.accounted
  refine ⟨?_, account.headReport⟩
  intro k bound
  have stamped := run.ownLog.entries k bound
  have previous := account.linked.previous_eq k bound
  refine ⟨account.sequences k bound, stamped.identity, stamped.handle, previous.trans ?_, stamped.digest⟩
  by_cases first : k = 0
  · subst first
    simp [eventChain]
  · have shorter : (List.take k (committedEvents history)).length = k := List.length_take_of_le (Nat.le_of_lt bound)
    rw [eventChain.head_eq_getElem (by omega), if_neg first]
    simp only [shorter, List.getElem_take, eventChain]

theorem hash_chain_reviewedNote : ∃ history s note review,
    RoomRun Sha256.digest ownOnly (emptyRoom 0).roomHandle8 (emptyRoom 0).roomIdSha256 history s ∧
      committedEvents history = [note, review] ∧ review.previousSha256 = note.fullSha256 ∧
      HeadReport (committedEvents history) s.writer := by
  obtain ⟨history, s, review, run, events, _⟩ := reviewedNote_run ownOnly rfl firstNote_hash
  obtain ⟨links, report⟩ := run.hash_chain
  have link := (links 1 (by rw [events]; exact Nat.one_lt_two)).previous
  simp only [events] at link
  exact ⟨history, s, _, review, run, events, link, report⟩

/-- Every committed event satisfies the admission rules against the log at
its commit point, whatever was committed or sealed since its preparation. -/
theorem RoomRun.committed_admitted (run : RoomRun sha256 ownOnly roomHandle8 roomIdSha256 history s)
    {before after : RoomHistory} {transition : Transition RoomSystem RoomLabel} {event : CommittedEvent}
    (recorded : history = before ++ transition :: after) (committed : transition.label.committed? = some event) :
    AdmissionRules event.draft fun digest => ∃ parent ∈ committedEvents before, parent.fullSha256 = digest := by
  have log : committedEvents history = committedEvents before ++ event :: committedEvents after := by
    rw [recorded, ← List.singleton_append, committedEvents_append, committedEvents_append, committedEvents_singleton,
      committed]
    rfl
  have bound : (committedEvents before).length < (committedEvents history).length := by
    rw [log, List.length_append, List.length_cons]
    omega
  have stamped := run.ownLog.entries _ bound
  simpa [log] using stamped.admitted

/-- A review is committed behind the note that it names as its parent. -/
theorem committed_admitted_reviewedNote : ∃ history s before transition after review,
    RoomRun Sha256.digest ownOnly (emptyRoom 0).roomHandle8 (emptyRoom 0).roomIdSha256 history s ∧
      history = before ++ transition :: after ∧ transition.label.committed? = some review ∧
      review.draft.kind = .peerReview ∧ ∃ parent ∈ committedEvents before, parent.fullSha256 = review.draft.parentSha256 := by
  obtain ⟨history, s, review, run, events, draft⟩ := reviewedNote_run ownOnly rfl firstNote_hash
  have committed : review ∈ committedEvents history := by
    rw [events]
    exact List.mem_cons_of_mem _ (List.mem_singleton_self review)
  obtain ⟨transition, member, found⟩ := List.mem_filterMap.mp committed
  obtain ⟨before, after, recorded⟩ := List.append_of_mem member
  have kind : review.draft.kind = .peerReview := by rw [draft]; rfl
  have admitted := run.committed_admitted recorded found
  exact ⟨history, s, before, transition, after, review, run, recorded, found, kind,
    (admitted.parent (.inr (.inr (.inl kind)))).2⟩

end Asolaria.ReflectionRoom
