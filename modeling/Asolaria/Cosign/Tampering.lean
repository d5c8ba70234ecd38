import Asolaria.Cosign.ChainRun
import Asolaria.Library.Guard

namespace Asolaria.Cosign
open Library Syscall

variable {chain : CosignChain} {history : AppendHistory}

/-- Behind rows that fit, the walk succeeds exactly where the others fit too. -/
theorem CosignChain.validateFrom_ok_iff {done : List CosignRow} (fitting : Fitting done) (rest : List CosignRow) :
    validateFrom (rowFormat.head done) done.length rest = .ok () ↔ Fitting (done ++ rest) := by
  induction rest generalizing done with
  | nil => simp [validateFrom, fitting]
  | cons row rest ih =>
    have walk : RowFits done row →
        (validateFrom (rowFormat.digest row) (done.length + 1) rest = .ok () ↔ Fitting (done ++ row :: rest)) := by
      intro fits
      have walked := ih (Fitting.snoc fitting fits)
      rwa [rowFormat.head_append_singleton, List.length_append, List.length_singleton, List.append_assoc,
        List.singleton_append] at walked
    rw [validateFrom, guard_ok_iff, guard_ok_iff, guard_ok_iff, not_not, not_not]
    constructor
    · rintro ⟨numbered, linked, tagged, ok⟩
      exact (walk ⟨numbered, linked, by simpa using tagged⟩).mp ok
    · intro all
      have fits := (all.split rfl).2
      exact ⟨fits.numbered, fits.linked, by simp [fits.tagged], (walk fits).mpr all⟩

theorem CosignChain.validateEndToEnd_ok_iff (chain : CosignChain) :
    chain.validateEndToEnd = .ok () ↔ Fitting chain.rows := validateFrom_ok_iff .nil chain.rows

theorem except_error_iff {ε : Type*} {reply : Except ε Unit} : (∃ error, reply = .error error) ↔ ¬ reply = .ok () := by
  cases reply with
  | error error => simp
  | ok => simp

/-- With one row replaced by another of a different digest, rows still fit
exactly where it was the last one and the new row fits its place: a row
behind it names the digest of the original. -/
theorem Fitting.replaced_iff {before later : List CosignRow} {old row : CosignRow}
    (fitting : Fitting (before ++ old :: later)) (apart : rowFormat.digest row ≠ rowFormat.digest old) :
    Fitting (before ++ row :: later) ↔ later = [] ∧ RowFits before row := by
  constructor
  · intro altered
    refine ⟨?_, (altered.split rfl).2⟩
    cases later with
    | nil => rfl
    | cons next later =>
      have stored := (fitting.split (List.append_cons before old (next :: later))).2.linked
      have named := (altered.split (List.append_cons before row (next :: later))).2.linked
      rw [rowFormat.head_append_singleton] at stored named
      exact absurd (named.symm.trans stored) apart
  · rintro ⟨rfl, fits⟩
    exact .snoc (fitting.split rfl).1 fits

/-- Replacing one row of a chain made by appends is noticed exactly where a
row follows it, or where the new row does not fit its own place. -/
theorem tampering_noticed_iff (run : AppendRun history chain) {k : Nat} (stored : k < chain.rows.length)
    {row : CosignRow} (apart : sha16Of (utf8 (canonicalBytesOfRow row)) ≠
      sha16Of (utf8 (canonicalBytesOfRow chain.rows[k]))) :
    (∃ error, { chain with rows := chain.rows.set k row }.validateEndToEnd = .error error) ↔
      k + 1 < chain.rows.length ∨ row.row ≠ chain.rows[k].row ∨ row.prevSha16 ≠ chain.rows[k].prevSha16 ∨
        row.kind.isEmpty = true := by
  have cut : chain.rows = chain.rows.take k ++ chain.rows[k] :: chain.rows.drop (k + 1) := by
    rw [← List.drop_eq_getElem_cons stored, List.take_append_drop]
  have altered : chain.rows.set k row = chain.rows.take k ++ row :: chain.rows.drop (k + 1) := by
    rw [List.set_eq_take_append_cons_drop, if_pos stored]
  have fitting := run.inStep.fitting
  have original := (fitting.split cut).2
  rw [cut] at fitting
  rw [except_error_iff, CosignChain.validateEndToEnd_ok_iff, altered, fitting.replaced_iff apart, List.drop_eq_nil_iff]
  constructor
  · intro refused
    by_contra fits
    simp only [not_or, not_not, Nat.not_lt, Bool.not_eq_true] at fits
    obtain ⟨last, numbered, linked, tagged⟩ := fits
    exact refused ⟨last, numbered.trans original.numbered, linked.trans original.linked, tagged⟩
  · rintro (later | renumbered | relinked | untagged) ⟨last, fits⟩
    · omega
    · exact renumbered (fits.numbered.trans original.numbered.symm)
    · exact relinked (fits.linked.trans original.linked.symm)
    · rw [fits.tagged] at untagged
      cases untagged

/-- The first sample row with another time. -/
def redatedRow : CosignRow := { sampleRow 1 genesisPrevSha16 with tsNs := 7 }

theorem redatedRow_sha16_ne : sha16Of (utf8 (canonicalBytesOfRow redatedRow)) ≠
    sha16Of (utf8 (canonicalBytesOfRow (sampleRow 1 genesisPrevSha16))) := by decide +kernel

theorem older_row_tampering_noticed : (∃ history, AppendRun history twoRows) ∧
    ∃ error, { twoRows with rows := twoRows.rows.set 0 redatedRow }.validateEndToEnd = .error error := by
  obtain ⟨history, run⟩ := twoRows_run
  have stored : 0 < twoRows.rows.length := by decide
  exact ⟨⟨history, run⟩, (tampering_noticed_iff run stored redatedRow_sha16_ne).mpr (.inl (by decide))⟩

/-- The newest row can be given another time without notice. -/
theorem newest_row_tampering_unnoticed : (∃ history, AppendRun history oneRow) ∧
    oneRow.rows = [sampleRow 1 genesisPrevSha16] ∧ redatedRow.tsNs ≠ (sampleRow 1 genesisPrevSha16).tsNs ∧
    sha16Of (utf8 (canonicalBytesOfRow redatedRow)) ≠
      sha16Of (utf8 (canonicalBytesOfRow (sampleRow 1 genesisPrevSha16))) ∧
    { oneRow with rows := oneRow.rows.set 0 redatedRow }.validateEndToEnd = .ok () := by
  refine ⟨oneRow_run, rfl, by decide, redatedRow_sha16_ne, ?_⟩
  rw [CosignChain.validateEndToEnd_ok_iff]
  exact .snoc .nil ⟨rfl, rfl, rfl⟩

end Asolaria.Cosign
