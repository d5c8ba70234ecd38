import Asolaria.ReflectionRoom.SequentialClient

namespace Asolaria.ReflectionRoom
open Library
open Library.Sha256 (Digest)

/-- The tier of the k-th window: five windows make a checkpoint and five
checkpoints a super-gulp. -/
def tierOf (k : Nat) : GulpTier :=
  if 25 ∣ k then .superGulp50k else if 5 ∣ k then .checkpoint10k else .gulp2k

theorem checkpoint_divisor : gulpsPerCheckpoint.toUInt64.toNat = 5 := rfl

theorem superGulp_divisor : (gulpsPerCheckpoint * checkpointsPerSuperGulp).toUInt64.toNat = 25 := rfl

theorem RoomWriter.gulpTier_eq (gulpIndex : UInt64) : RoomWriter.gulpTier gulpIndex = tierOf gulpIndex.toNat := by
  have remainder (divisor : UInt64) : gulpIndex % divisor = 0 ↔ divisor.toNat ∣ gulpIndex.toNat := by
    rw [← UInt64.toNat_inj, UInt64.toNat_mod, UInt64.toNat_zero, Nat.dvd_iff_mod_eq_zero]
  unfold RoomWriter.gulpTier tierOf
  simp only [remainder, checkpoint_divisor, superGulp_divisor]

/-- What the k-th successful seal of a log says, counting from one. -/
structure SealRecord (log : List CommittedEvent) (k : Nat) (gulpSeal : GulpSeal) : Prop where
  index : gulpSeal.gulpIndex.toNat = k
  cumulative : gulpSeal.cumulativeEvents.toNat = 2000 * k
  checkpoint : gulpSeal.checkpointIndex.toNat = k / 5
  superGulp : gulpSeal.superGulpIndex.toNat = k / 25
  tier : gulpSeal.tier = tierOf k
  head : (log[2000 * k - 1]?).map (·.fullSha256) = some gulpSeal.roomHeadSha256

variable {sha256 : List UInt8 → Digest} {outside : RoomWriter → PreparedEvent → Prop}
  {roomHandle8 : Handle8} {roomIdSha256 : Digest} {history : RoomHistory} {s : RoomSystem}
  {log : List CommittedEvent} {seals : List GulpSeal}

theorem SealRecord.extend {k : Nat} {gulpSeal : GulpSeal} (record : SealRecord log k gulpSeal)
    (later : List CommittedEvent) : SealRecord (log ++ later) k gulpSeal := by
  refine ⟨record.index, record.cumulative, record.checkpoint, record.superGulp, record.tier, ?_⟩
  obtain ⟨event, found, value⟩ := Option.map_eq_some_iff.mp record.head
  have bound := (List.getElem?_eq_some_iff.mp found).1
  rw [List.getElem?_append_left bound, found, Option.map_some, value]

/-- Sealing a full window records the next index, the whole log so far and
the head reached by its last event. -/
theorem Accounted.sealRecord {w : RoomWriter} (account : Accounted log seals w) (product : Digest)
    (ready : w.recent.length.toUInt32 = activeEnvelopeWindow) (fits : w.totalGulps.toNat + 1 < 2 ^ 64) :
    SealRecord log (seals.length + 1) (w.gulpSeal sha256 product) := by
  obtain ⟨older, split, length⟩ := account.window
  have consumed := account.full_of_ready ready
  have total : log.length = 2000 * (seals.length + 1) := by
    rw [split, List.length_append, length, consumed]
    omega
  have index : (w.totalGulps + 1).toNat = seals.length + 1 := by
    rw [← account.gulps]
    exact toNat_add_of_lt fits
  refine ⟨index, account.total.trans total, ?_, ?_, ?_, ?_⟩
  · simp only [RoomWriter.gulpSeal, UInt64.toNat_div, index, checkpoint_divisor]
  · simp only [RoomWriter.gulpSeal, UInt64.toNat_div, index, superGulp_divisor]
  · rw [← index]
    exact RoomWriter.gulpTier_eq _
  · have last : 2000 * (seals.length + 1) - 1 = log.length - 1 := by omega
    rw [last, List.getElem?_eq_getElem (by omega), Option.map_some]
    exact congrArg some ((account.head.trans (eventChain.head_eq_getElem (by omega))).symm)

/-- All seals of a run so far, with the tiers counted. -/
structure SealLedger (log : List CommittedEvent) (seals : List GulpSeal) : Prop where
  records : ∀ k (bound : k < seals.length), SealRecord log (k + 1) seals[k]
  checkpoints : seals.countP (fun gulpSeal => gulpSeal.tier = .checkpoint10k ∨ gulpSeal.tier = .superGulp50k) =
    seals.length / 5
  superGulps : seals.countP (fun gulpSeal => gulpSeal.tier = .superGulp50k) = seals.length / 25

theorem tierOf_checkpoint (k : Nat) : tierOf k = .checkpoint10k ∨ tierOf k = .superGulp50k ↔ 5 ∣ k := by
  unfold tierOf
  split_ifs with super checkpoint
  · simp only [or_true, true_iff]
    omega
  · simpa using checkpoint
  · simpa using checkpoint

theorem tierOf_superGulp (k : Nat) : tierOf k = .superGulp50k ↔ 25 ∣ k := by
  unfold tierOf
  split_ifs with super checkpoint
  · simpa using super
  · simpa using super
  · simpa using super

theorem SealLedger.sealed (ledger : SealLedger log seals) {gulpSeal : GulpSeal}
    (record : SealRecord log (seals.length + 1) gulpSeal) : SealLedger log (seals ++ [gulpSeal]) where
  records := forall_getElem_concat (fun k entry => SealRecord log (k + 1) entry) ledger.records record
  checkpoints := by
    simp only [List.countP_append, List.countP_singleton, ledger.checkpoints, record.tier, tierOf_checkpoint,
      List.length_append, List.length_singleton, Nat.succ_div, decide_eq_true_eq]
  superGulps := by
    simp only [List.countP_append, List.countP_singleton, ledger.superGulps, record.tier, tierOf_superGulp,
      List.length_append, List.length_singleton, Nat.succ_div, decide_eq_true_eq]

theorem RoomRun.sealLedger (run : RoomRun sha256 outside roomHandle8 roomIdSha256 history s) :
    SealLedger (committedEvents history) (gulpSeals history) := by
  obtain ⟨first, created, run⟩ := run
  induction run with
  | start => exact ⟨by simp [gulpSeals], rfl, rfl⟩
  | @next history s label t previous step ledger =>
    obtain ⟨account, issued⟩ := RoomRun.accounted ⟨first, created, previous⟩
    have effect := step.effect account.balanced issued
    simp only [committedEvents_append, committedEvents_singleton, gulpSeals_append, gulpSeals_singleton]
    generalize label.committed? = committed at effect
    generalize label.sealed? = gulpSeal at effect
    generalize t.writer = after at effect
    cases effect with
    | unchanged => simpa using ledger
    | @committed event =>
      simp only [Option.toList_some, Option.toList_none, List.append_nil]
      exact ⟨fun k bound => (ledger.records k bound).extend [event], ledger.checkpoints, ledger.superGulps⟩
    | sealed product ready fits =>
      simp only [Option.toList_some, Option.toList_none, List.append_nil]
      exact ledger.sealed (account.sealRecord product ready fits)

/-- In every run, whatever is refused in between, the k-th successful seal
carries the indices, totals, tier and head of the k-th window, and the totals
of the committed head count the seals of each tier. -/
theorem RoomRun.seal_hierarchy (run : RoomRun sha256 anyIssued roomHandle8 roomIdSha256 history s) :
    (∀ k (bound : k < (gulpSeals history).length),
      SealRecord (committedEvents history) (k + 1) (gulpSeals history)[k]) ∧
    s.writer.readCommittedHead.totalCheckpoints.toNat = (gulpSeals history).countP (fun gulpSeal =>
      gulpSeal.tier = .checkpoint10k ∨ gulpSeal.tier = .superGulp50k) ∧
    s.writer.readCommittedHead.totalSuperGulps.toNat =
      (gulpSeals history).countP (fun gulpSeal => gulpSeal.tier = .superGulp50k) := by
  obtain ⟨account, _⟩ := run.accounted
  have ledger := run.sealLedger
  refine ⟨ledger.records, ?_, ?_⟩
  · rw [ledger.checkpoints, ← account.gulps]
    exact UInt64.toNat_div _ _
  · rw [ledger.superGulps, ← account.gulps]
    exact UInt64.toNat_div _ _

theorem seal_hierarchy_oneWindow : ∃ history s,
    RoomRun Sha256.digest anyIssued (emptyRoom 0).roomHandle8 (emptyRoom 0).roomIdSha256 history s ∧
      (gulpSeals history).length = 1 ∧ ∀ k (bound : k < (gulpSeals history).length),
        SealRecord (committedEvents history) (k + 1) (gulpSeals history)[k] := by
  obtain ⟨history, s, run, _, seals, _⟩ := oneWindow_run Sha256.digest anyIssued
  exact ⟨history, s, run, seals, run.seal_hierarchy.1⟩

end Asolaria.ReflectionRoom
