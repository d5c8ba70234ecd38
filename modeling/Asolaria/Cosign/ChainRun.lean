import Asolaria.Cosign.Chain

namespace Asolaria.Cosign
open Library Syscall

/-- One call of `append` with any row. A `Vec` holds fewer than `2 ^ 63`
rows, and a push that does not fit into it aborts instead of returning. -/
inductive AppendStep (chain : CosignChain) : CosignRow × Except CosignChainErr Unit → CosignChain → Prop
  | append (row) : (chain.append row).2.rows.length < 2 ^ 63 →
      AppendStep chain (row, (chain.append row).1) (chain.append row).2

abbrev AppendHistory := List (Transition CosignChain (CosignRow × Except CosignChainErr Unit))

def AppendRun (history : AppendHistory) (chain : CosignChain) : Prop := Run AppendStep CosignChain.new history chain

/-- What is checked of a row that stands behind the given ones. -/
structure RowFits (rows : List CosignRow) (row : CosignRow) : Prop where
  numbered : row.row = UInt64.ofNat rows.length + 1
  linked : row.prevSha16 = rowFormat.head rows
  tagged : row.kind.isEmpty = false

/-- Rows each of which fits those before it. -/
inductive Fitting : List CosignRow → Prop
  | nil : Fitting []
  | snoc {rows row} : Fitting rows → RowFits rows row → Fitting (rows ++ [row])

theorem Fitting.split {rows before later : List CosignRow} {row : CosignRow} (fitting : Fitting rows)
    (cut : rows = before ++ row :: later) : Fitting before ∧ RowFits before row := by
  induction fitting generalizing later with
  | nil => simp at cut
  | @snoc rows last fitting fits ih =>
    rcases List.eq_nil_or_concat later with rfl | ⟨rest, final, rfl⟩
    · obtain ⟨sameRows, sameRow⟩ := List.append_inj' cut rfl
      obtain rfl := List.singleton_inj.mp sameRow
      exact ⟨sameRows ▸ fitting, sameRows ▸ fits⟩
    · rw [List.concat_eq_append, ← List.cons_append, ← List.append_assoc] at cut
      exact ih (List.append_inj' cut rfl).1

/-- The three fields of a chain are in step. -/
structure InStep (chain : CosignChain) : Prop where
  nextRow : chain.nextRow = chain.depth + 1
  head : chain.headSha16 = rowFormat.head chain.rows
  fitting : Fitting chain.rows

variable {chain : CosignChain} {row : CosignRow} {history : AppendHistory}

theorem InStep.new : InStep CosignChain.new := ⟨rfl, rfl, .nil⟩

theorem InStep.extended (inStep : InStep chain) (numbered : row.row = chain.nextRow)
    (linked : row.prevSha16 = chain.headSha16) (tagged : row.kind.isEmpty = false) : InStep (chain.extended row) where
  nextRow := by
    rw [CosignChain.extended, CosignChain.depth, List.length_append, List.length_singleton, UInt64.ofNat_add,
      inStep.nextRow]
    rfl
  head := (rowFormat.head_append_singleton _ _).symm
  fitting := .snoc inStep.fitting ⟨numbered.trans inStep.nextRow, linked.trans inStep.head, tagged⟩

theorem InStep.append (inStep : InStep chain) (row : CosignRow) : InStep (chain.append row).2 := by
  have step := chain.append_case row
  generalize chain.append row = outcome at step ⊢
  cases step with
  | outOfOrder | unlinked | untagged => exact inStep
  | accepted numbered linked tagged => exact inStep.extended numbered linked tagged

theorem AppendRun.inStep (run : AppendRun history chain) : InStep chain := by
  induction run with
  | start => exact InStep.new
  | @next history current label after previous step ih =>
    cases step with
    | append row => exact ih.append row

theorem AppendRun.rows_fit (run : AppendRun history chain) : chain.rows.length < 2 ^ 63 := by
  cases run with
  | start => decide
  | next _ step =>
    cases step with
    | append _ fits => exact fits

/-- The number of a stored row is used up. -/
theorem InStep.row_ne_nextRow (inStep : InStep chain) (short : chain.rows.length < 2 ^ 63) {stored : CosignRow}
    (member : stored ∈ chain.rows) : stored.row ≠ chain.nextRow := by
  obtain ⟨before, later, cut⟩ := List.append_of_mem member
  intro again
  have numbers : UInt64.ofNat before.length + 1 = UInt64.ofNat chain.rows.length + 1 := by
    rw [← (inStep.fitting.split cut).2.numbered, again, inStep.nextRow, CosignChain.depth]
  have lengths : chain.rows.length = before.length + (later.length + 1) := by rw [cut, List.length_append, List.length_cons]
  have values := congrArg UInt64.toNat numbers
  rw [toNat_ofNat_succ (by omega), toNat_ofNat_succ (by omega)] at values
  omega

theorem CosignChain.append_outOfOrder (other : row.row ≠ chain.nextRow) :
    chain.append row = (.error .nonMonotonicRow, chain) := by
  rw [append, if_pos other]

/-- What makes a chain append-only: what each recorded call did, how the
fields of the chain are in step, and which rows it still refuses. -/
structure AppendOnly (history : AppendHistory) (chain : CosignChain) : Prop where
  rejected : ∀ transition ∈ history, ∀ error, transition.label.2 = .error error → transition.after = transition.before
  accepted : ∀ transition ∈ history, transition.label.2 = .ok () →
    transition.after.rows = transition.before.rows ++ [transition.label.1]
  nextRow : chain.nextRow = chain.depth + 1
  head : chain.head =
    (chain.rows.getLast?.map fun row => sha16Of (utf8 (canonicalBytesOfRow row))).getD genesisPrevSha16
  outOfOrder : ∀ row, row.row ≠ chain.nextRow → chain.append row = (.error .nonMonotonicRow, chain)
  replayed : ∀ row, ∀ stored ∈ chain.rows, row.row = stored.row → chain.append row = (.error .nonMonotonicRow, chain)

theorem AppendStep.rejected {label : CosignRow × Except CosignChainErr Unit} {after : CosignChain}
    (step : AppendStep chain label after) {error : CosignChainErr} (refused : label.2 = .error error) : after = chain := by
  cases step with
  | append row =>
    have outcome := chain.append_case row
    generalize chain.append row = result at outcome refused ⊢
    cases outcome with
    | outOfOrder | unlinked | untagged => rfl
    | accepted => cases refused

theorem AppendStep.accepted {label : CosignRow × Except CosignChainErr Unit} {after : CosignChain}
    (step : AppendStep chain label after) (taken : label.2 = .ok ()) : after.rows = chain.rows ++ [label.1] := by
  cases step with
  | append row =>
    have outcome := chain.append_case row
    generalize chain.append row = result at outcome taken ⊢
    cases outcome with
    | outOfOrder | unlinked | untagged => cases taken
    | accepted => rfl

/-- Every run of appends, with any rows in any order, is append-only. -/
theorem append_run_appendOnly (run : AppendRun history chain) : AppendOnly history chain where
  rejected _ member _ refused := (Run.step_of_mem run member).rejected refused
  accepted _ member taken := (Run.step_of_mem run member).accepted taken
  nextRow := run.inStep.nextRow
  head := run.inStep.head
  outOfOrder _ other := CosignChain.append_outOfOrder other
  replayed := by
    intro row stored member same
    apply CosignChain.append_outOfOrder
    rw [same]
    exact run.inStep.row_ne_nextRow run.rows_fit member

theorem AppendRun.extended (run : AppendRun history chain) (numbered : row.row = chain.nextRow)
    (linked : row.prevSha16 = chain.headSha16) (tagged : row.kind.isEmpty = false)
    (fits : (chain.extended row).rows.length < 2 ^ 63) :
    AppendRun (history ++ [⟨chain, (row, .ok ()), chain.extended row⟩]) (chain.extended row) := by
  have appended : chain.append row = (.ok (), chain.extended row) := by
    rw [CosignChain.append, if_neg (not_not.mpr numbered), if_neg (not_not.mpr linked), if_neg (by simp [tagged])]
    rfl
  have step := @AppendStep.append chain row (by rw [appended]; exact fits)
  rw [appended] at step
  exact .next run step

/-- The sample row of the module's tests. -/
def sampleRow (num : UInt64) (prev : String) : CosignRow where
  row := num
  tsNs := 1000000 + num
  prevSha16 := prev
  kind := "TEST"
  payloadSha16 := "0000000000000000"
  sig := ⟨Vector.replicate 64 0⟩

def oneRow : CosignChain := CosignChain.new.extended (sampleRow 1 genesisPrevSha16)

def twoRows : CosignChain := oneRow.extended (sampleRow 2 oneRow.headSha16)

theorem oneRow_run : ∃ history, AppendRun history oneRow :=
  ⟨_, AppendRun.extended .start rfl rfl rfl (by decide)⟩

theorem twoRows_run : ∃ history, AppendRun history twoRows := by
  obtain ⟨history, run⟩ := oneRow_run
  exact ⟨_, run.extended rfl rfl rfl (by decide)⟩

/-- Neither row of a chain of two is taken a second time. -/
theorem twoRows_replay_refused : (∃ history, AppendRun history twoRows) ∧
    twoRows.append (sampleRow 1 genesisPrevSha16) = (.error .nonMonotonicRow, twoRows) ∧
    twoRows.append (sampleRow 2 oneRow.headSha16) = (.error .nonMonotonicRow, twoRows) := by
  obtain ⟨history, run⟩ := twoRows_run
  have replayed := (append_run_appendOnly run).replayed
  exact ⟨⟨history, run⟩, replayed _ _ (List.mem_append_left _ (List.mem_singleton_self _)) rfl,
    replayed _ _ (List.mem_append_right _ (List.mem_singleton_self _)) rfl⟩

end Asolaria.Cosign
