import Asolaria.Library.Tickets
import Asolaria.Syscall.Components

namespace Asolaria.Syscall
open Library

/-- The reading of a clock. -/
def KernelLabel.time? : KernelLabel → Option UInt64
  | .time (.ok t) => some t
  | _ => none

/-- The call brought a row to the chain: one of a caller, or a verdict. -/
def KernelLabel.appends : KernelLabel → Bool
  | .cosignAppend _ reply => reply.isOk
  | .hookwallPost _ _ reply => reply.isOk
  | _ => false

/-- The sequence number that a caller was told. -/
def KernelLabel.sequence? : KernelLabel → Option UInt64
  | .cosignAppend _ (.ok seq) => some seq
  | _ => none

def times (history : KernelHistory) : List UInt64 := history.filterMap (·.label.time?)

def sequenceNumbers (history : KernelHistory) : List UInt64 := history.filterMap (·.label.sequence?)

/-- The sequence number of a row, whether or not its caller was told. -/
def rowNumber (step : Transition Kernel KernelLabel) : Option UInt64 :=
  if step.label.appends then some (step.before.appendSeqCounter + 1) else none

section Steps
variable {k after : Kernel} {label : KernelLabel}

theorem time_of_other (other : Component.clock.owns label = false) : label.time? = none := by
  cases label <;> first | rfl | cases other

theorem appends_of_other (other : Component.chain.owns label = false) : label.appends = false := by
  cases label <;> first | rfl | cases other

theorem counts_time : Counts KernelStep (·.monotonicCounter) (·.label.time?) := by
  intro k label after step
  cases mine : Component.clock.owns label with
  | false =>
    have stays := congrArg Kernel.monotonicCounter (component_rests step mine)
    exact .inl ⟨time_of_other mine, stays⟩
  | true =>
    cases step <;> first | exact .inr ⟨rfl, rfl⟩ | cases mine

theorem append_filled {row : List UInt8} (filled : row ≠ []) (counter : UInt64) :
    append counter row = (.ok (counter + 1), counter + 1) := by
  rw [append, List.isEmpty_eq_false_iff.mpr filled, if_neg Bool.false_ne_true]

theorem sysCosignAppend_eq (k : Kernel) (row : List UInt8) : k.sysCosignAppend row =
    if row.length < Kernel.minCosignRowBytes then (.error .invalid, k)
    else (.ok (k.appendSeqCounter + 1), { k with appendSeqCounter := k.appendSeqCounter + 1 }) := by
  rw [Kernel.sysCosignAppend]
  split
  · rfl
  · next long =>
    have filled : row ≠ [] := by
      rintro rfl
      exact long (by decide)
    rw [append_filled filled]
    rfl

theorem hookwallPost_eq (counter : UInt64) (ctx : HookContext) (verdict : HookwallVerdict) :
    hookwallPost counter ctx verdict =
      if ctx.slot.toNat ≥ hookwallSlotCount then (.error .invalid, counter) else (.ok (), counter + 1) := by
  have filled : composeVerdictRow ctx verdict ≠ [] := List.cons_ne_nil _ _
  rw [hookwallPost, append_filled filled]

/-- What an append of either kind does to the counter of the chain. -/
theorem appends_case (step : KernelStep k label after) (mine : Component.chain.owns label = true) :
    (label.appends = false ∧ after.appendSeqCounter = k.appendSeqCounter) ∨
      (label.appends = true ∧ after.appendSeqCounter = k.appendSeqCounter + 1) := by
  cases step with
  | cosignAppend row =>
    rw [sysCosignAppend_eq]
    split
    · exact .inl ⟨rfl, rfl⟩
    · exact .inr ⟨rfl, rfl⟩
  | hookwallPost env verdict =>
    unfold Kernel.sysHookwallPost
    split
    · next slot syscallNo _ =>
      rw [hookwallPost_eq]
      by_cases large : slot.toNat ≥ hookwallSlotCount
      · rw [if_pos large]
        exact .inl ⟨rfl, rfl⟩
      · rw [if_neg large]
        exact .inr ⟨rfl, rfl⟩
    · exact .inl ⟨rfl, rfl⟩
  | _ => cases mine

theorem counts_rows : Counts KernelStep (·.appendSeqCounter + 1) rowNumber := by
  intro k label after step
  cases mine : Component.chain.owns label with
  | false =>
    have stays := congrArg Kernel.appendSeqCounter (component_rests step mine)
    refine .inl ⟨?_, congrArg (· + 1) stays⟩
    rw [rowNumber, appends_of_other mine, if_neg Bool.false_ne_true]
  | true =>
    rcases appends_case step mine with ⟨refused, stays⟩ | ⟨accepted, moves⟩
    · refine .inl ⟨?_, congrArg (· + 1) stays⟩
      rw [rowNumber, refused, if_neg Bool.false_ne_true]
    · refine .inr ⟨?_, congrArg (· + 1) moves⟩
      rw [rowNumber, accepted, if_pos rfl]

/-- A caller is told the number of its row. -/
theorem rowNumber_of_sequence {number : UInt64} (step : KernelStep k label after) (told : label.sequence? = some number) :
    rowNumber ⟨k, label, after⟩ = some number := by
  cases step with
  | cosignAppend row =>
    rw [sysCosignAppend_eq] at told ⊢
    split at told
    · cases told
    · next long =>
      obtain rfl := Option.some.inj told
      rw [if_neg long]
      rfl
  | _ => cases told

end Steps

theorem filterMap_sublist {α β : Type*} {f g : α → Option β} {l : List α} (agree : ∀ a ∈ l, ∀ b, g a = some b → f a = some b) :
    (l.filterMap g).Sublist (l.filterMap f) := by
  induction l with
  | nil => exact .slnil
  | cons a l ih =>
    obtain ⟨here, others⟩ := List.forall_mem_cons.mp agree
    cases told : g a with
    | none =>
      rw [List.filterMap_cons_none told]
      cases found : f a with
      | none =>
        rw [List.filterMap_cons_none found]
        exact ih others
      | some b =>
        rw [List.filterMap_cons_some found]
        exact (ih others).cons b
    | some b =>
      rw [List.filterMap_cons_some told, List.filterMap_cons_some (here b told)]
      exact (ih others).cons_cons b

variable {history : KernelHistory} {k : Kernel}

/-- The clock counts its readings, and the chain its rows: a row of a caller
and a verdict take one number each, and what is refused takes none. No other
call moves either of them, so both grow until their counters have gone around. -/
theorem kernel_counters (run : KernelRun history k) :
    (times history = ticketsFrom 0 (history.countP (·.label.time?.isSome)) ∧
      ((times history).Pairwise (· < ·) ↔ history.countP (·.label.time?.isSome) ≤ UInt64.size)) ∧
    history.filterMap rowNumber = ticketsFrom 1 (history.countP (·.label.appends)) ∧
      (sequenceNumbers history).Sublist (history.filterMap rowNumber) ∧
      (history.countP (·.label.appends) < UInt64.size → (sequenceNumbers history).Pairwise (· < ·)) := by
  obtain ⟨n, readings, _⟩ := run.tickets counts_time
  obtain ⟨m, rows, _⟩ := run.tickets counts_rows
  have told : (sequenceNumbers history).Sublist (history.filterMap rowNumber) :=
    filterMap_sublist fun step member _ told => rowNumber_of_sequence (run.step_of_mem member) told
  have first : n = history.countP (·.label.time?.isSome) := by
    rw [← @length_ticketsFrom Kernel.initial.monotonicCounter n, ← readings, List.length_filterMap_eq_countP]
  have second : m = history.countP (·.label.appends) := by
    rw [← @length_ticketsFrom (Kernel.initial.appendSeqCounter + 1) m, ← rows, List.length_filterMap_eq_countP]
    refine List.countP_congr fun step _ => ?_
    rw [rowNumber]
    cases step.label.appends <;> simp
  have clock : times history = ticketsFrom 0 (history.countP (·.label.time?.isSome)) := first ▸ readings
  have chain : history.filterMap rowNumber = ticketsFrom 1 (history.countP (·.label.appends)) := second ▸ rows
  refine ⟨⟨clock, ?_⟩, chain, told, fun few => ?_⟩
  · rw [clock, pairwise_ticketsFrom, UInt64.toNat_zero, Nat.zero_add]
  · have grows : (ticketsFrom 1 (history.countP (·.label.appends))).Pairwise (· < ·) := by
      rw [pairwise_ticketsFrom, show (1 : UInt64).toNat = 1 from rfl]
      omega
    exact (chain ▸ grows).sublist told

/-- A verdict takes the number between two rows. -/
theorem kernel_counters_verdict : ∃ history k, KernelRun history k ∧ (sequenceNumbers history).Pairwise (· < ·) ∧
    sequenceNumbers history = [1, 3] := by
  let row : List UInt8 := List.replicate 16 7
  have begun : KernelRun [] Kernel.initial := .start
  have first := begun.next (.cosignAppend row)
  have verdict := first.next (.hookwallPost [3, 5] .hold)
  have second := verdict.next (.cosignAppend row)
  exact ⟨_, _, second, (kernel_counters second).2.2.2 (by decide), by decide⟩

end Asolaria.Syscall
