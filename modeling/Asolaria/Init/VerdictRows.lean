import Asolaria.Init.Dispatch

namespace Asolaria.Init
open Library Envelope Syscall

abbrev InitEvent := Σ request : InitCall, request.Reply

/-- A reply that the kernel gives in some state, so that whatever others do
between two calls of init is allowed for. -/
def Answered (request : InitCall) (reply : request.Reply) : Prop := ∃ k, reply = (serve k request).1

/-- The row that `sys_hookwall_post` composes for an envelope. -/
def verdictRow (env : List UInt8) (verdict : HookwallVerdict) : List UInt8 :=
  composeVerdictRow ⟨env.getD 0 0, env.getD 1 0, 0, .micro, .publicTier⟩ verdict

/-- The rows that a call has added to the cosign ledger. -/
def appendedRow : InitEvent → List (List UInt8)
  | ⟨.hookwallPost env verdict, reply⟩ =>
    match (reply : Except SyscallErr Unit) with
    | .ok _ => [verdictRow env verdict]
    | .error _ => []
  | ⟨.cosignAppend row, reply⟩ =>
    match (reply : Except SyscallErr UInt64) with
    | .ok _ => [row]
    | .error _ => []
  | _ => []

def appendedRows (events : List InitEvent) : List (List UInt8) := events.flatMap appendedRow

variable {k : Kernel} {env typePrefix payload : List UInt8} {seq : UInt64} {verdict : HookwallVerdict}

theorem composeVerdictRow_ne_nil (ctx : HookContext) (verdict : HookwallVerdict) : composeVerdictRow ctx verdict ≠ [] := by
  simp [composeVerdictRow]

/-- The hook appends a row exactly where the first byte of the envelope is
the number of a slot. -/
theorem sysHookwallPost_eq (k : Kernel) (long : 2 ≤ env.length) (verdict : HookwallVerdict) :
    k.sysHookwallPost env verdict =
      if (env.headD 0).toNat < hookwallSlotCount then (.ok (), { k with appendSeqCounter := k.appendSeqCounter + 1 })
      else (.error .invalid, k) := by
  match env, long with
  | first :: second :: rest, _ =>
    rw [List.headD_cons]
    have filled := composeVerdictRow_ne_nil ⟨first, second, 0, .micro, .publicTier⟩ verdict
    by_cases low : first.toNat < hookwallSlotCount
    · simp only [Kernel.sysHookwallPost, hookwallPost, if_neg (Nat.not_le.mpr low), if_pos low, append,
        List.isEmpty_eq_false_iff.mpr filled, Bool.false_eq_true, if_false]
    · simp only [Kernel.sysHookwallPost, hookwallPost, if_pos (Nat.not_lt.mp low), if_neg low]

theorem sysHookwallPost_short (k : Kernel) (short : env.length < 2) (verdict : HookwallVerdict) :
    k.sysHookwallPost env verdict = (.error .invalid, k) := by
  cases env with
  | nil => rfl
  | cons first rest =>
    cases rest with
    | nil => rfl
    | cons second rest =>
      simp only [List.length_cons] at short
      omega

/-- The counter of the ledger moves by the rows a call has added. -/
theorem serve_appendSeqCounter (k : Kernel) (request : InitCall) : (serve k request).2.appendSeqCounter =
    k.appendSeqCounter + UInt64.ofNat (appendedRow ⟨request, (serve k request).1⟩).length := by
  have still : k.appendSeqCounter = k.appendSeqCounter + UInt64.ofNat 0 := (UInt64.add_zero _).symm
  cases request with
  | pidCurrent | hookwallPre => exact still
  | envelopeSend env routeHint =>
    simp only [serve, Kernel.sysEnvelopeSend]
    split <;> exact still
  | envelopeRecv buf maxWaitNs =>
    simp only [serve, Kernel.sysEnvelopeRecv]
    split <;> exact still
  | exec envelopeBytes =>
    simp only [serve, Kernel.sysExec]
    repeat' split
    all_goals exact still
  | hookwallPost env verdict =>
    rcases Nat.lt_or_ge env.length 2 with short | long
    · simp only [serve, sysHookwallPost_short k short verdict]
      exact still
    · simp only [serve, sysHookwallPost_eq k long verdict, appendedRow]
      split
      · rfl
      · exact still
  | cosignAppend row =>
    simp only [serve, Kernel.sysCosignAppend]
    split
    · exact still
    · unfold append
      split
      · exact still
      · rfl

variable {events : List InitEvent}

theorem appendedRows_append (events later : List InitEvent) :
    appendedRows (events ++ later) = appendedRows events ++ appendedRows later := List.flatMap_append

/-- A program that is run by itself leaves a trace, and the counter of the
ledger has moved by the rows of that trace. -/
theorem exists_trace_of_runOn {α : Type} (program : InitProgram α) (k : Kernel) :
    ∃ events, Calls.Trace Answered program events (program.runOn serve k).1 ∧
      (program.runOn serve k).2.appendSeqCounter = k.appendSeqCounter + UInt64.ofNat (appendedRows events).length := by
  induction program generalizing k with
  | done result => exact ⟨[], .done, (UInt64.add_zero _).symm⟩
  | call request next ih =>
    obtain ⟨events, trace, counter⟩ := ih (serve k request).1 (serve k request).2
    refine ⟨⟨request, (serve k request).1⟩ :: events, .call ⟨k, rfl⟩ trace, ?_⟩
    have rows : appendedRows (⟨request, (serve k request).1⟩ :: events) =
        appendedRow ⟨request, (serve k request).1⟩ ++ appendedRows events := rfl
    rw [Calls.runOn, counter, serve_appendSeqCounter, rows, List.length_append, UInt64.ofNat_add, UInt64.add_assoc]

theorem emitEnvelope_appends {next : UInt64} (trace : Calls.Trace Answered (emitEnvelope typePrefix seq payload) events next) :
    appendedRows events = [] := by
  obtain ⟨sent, reply, rest, first, second, rfl⟩ := trace.of_bind
  rw [(Calls.Trace.of_invoke first).1, (Calls.Trace.of_pure second).1]
  rfl

theorem sysHookwallPost_appends (long : 2 ≤ env.length) {reply : Except SyscallErr Unit}
    (trace : Calls.Trace Answered (sysHookwallPost env verdict) events reply) :
    appendedRows events = if (env.headD 0).toNat < hookwallSlotCount then [verdictRow env verdict] else [] := by
  obtain ⟨rfl, k, answered⟩ := Calls.Trace.of_invoke trace
  have served : reply = (k.sysHookwallPost env verdict).1 := answered
  rw [sysHookwallPost_eq k long] at served
  by_cases low : (env.headD 0).toNat < hookwallSlotCount
  · rw [if_pos low] at served ⊢
    rw [served]
    rfl
  · rw [if_neg low] at served ⊢
    rw [served]
    rfl

theorem replyAndPost_appends (long : 2 ≤ env.length) {ended : Dispatched}
    (trace : Calls.Trace Answered (replyAndPost typePrefix payload env seq verdict) events ended) :
    appendedRows events = if (env.headD 0).toNat < hookwallSlotCount then [verdictRow env verdict] else [] := by
  obtain ⟨emitted, next, rest, first, behind, rfl⟩ := trace.of_bind
  obtain ⟨posted, reply, last, second, third, rfl⟩ := behind.of_bind
  rw [appendedRows_append, appendedRows_append, emitEnvelope_appends first, sysHookwallPost_appends long second,
    (Calls.Trace.of_pure third).1, List.nil_append]
  exact List.append_nil _

/-- The rows a dispatch adds to the ledger, in whatever company: the verdict
it went by where the hook knows the slot, and none where it does not. -/
theorem dispatchEnvelope_appends (long : 4 ≤ env.length) {ended : Dispatched}
    (trace : Calls.Trace Answered (dispatchEnvelope (env.take 4) env seq) events ended) :
    appendedRows events = if (env.headD 0).toNat < hookwallSlotCount then
      [verdictRow env (verdictOf (Kernel.sysHookwallPre env))] else [] := by
  obtain ⟨asked, reply, rest, first, second, rfl⟩ := trace.of_bind
  obtain ⟨rfl, k, answered⟩ := Calls.Trace.of_invoke first
  have served : reply = Kernel.sysHookwallPre env := answered
  rw [served, dispatchGated_eq long] at second
  rw [appendedRows_append, sysHookwallPre_eq (by omega)]
  by_cases low : (env.headD 0).toNat < hookwallSlotCount
  · rw [if_pos low] at second
    have rows := replyAndPost_appends (by omega) second
    rw [if_pos low] at rows
    rw [rows, if_pos low, if_pos low]
    rfl
  · rw [if_neg low] at second
    have rows := replyAndPost_appends (by omega) second
    rw [if_neg low] at rows
    rw [rows, if_neg low]
    rfl

/-- A dispatch records its verdict in one row of the ledger exactly where
the first byte of the envelope is the number of a hook slot. -/
theorem one_verdict_row_iff (long : 4 ≤ env.length) {ended : Dispatched}
    (trace : Calls.Trace Answered (dispatchEnvelope (env.take 4) env seq) events ended) :
    appendedRows events = [verdictRow env (verdictOf (Kernel.sysHookwallPre env))] ↔
      (env.headD 0).toNat < hookwallSlotCount := by
  rw [dispatchEnvelope_appends long trace]
  split
  · next low => exact iff_of_true rfl low
  · next high => exact iff_of_false (by simp) high

/-- Four bytes that start with the number of a slot. -/
def slotEnvelope : List UInt8 := [1, 2, 3, 4]

theorem slotEnvelope_recorded : ∃ events ended,
    Calls.Trace Answered (dispatchEnvelope (slotEnvelope.take 4) slotEnvelope 1) events ended ∧
      appendedRows events = [verdictRow slotEnvelope (verdictOf (Kernel.sysHookwallPre slotEnvelope))] := by
  obtain ⟨events, trace, _⟩ := exists_trace_of_runOn (dispatchEnvelope (slotEnvelope.take 4) slotEnvelope 1) Kernel.initial
  exact ⟨events, _, trace, (one_verdict_row_iff (by decide) trace).mpr (by decide)⟩

/-- The blocked dispatch of a `PING` adds no row to the ledger. -/
theorem ping_unrecorded : ∃ events ended,
    Calls.Trace Answered (dispatchEnvelope ((utf8 "PING").take 4) (utf8 "PING") 1) events ended ∧
      verdictOf (Kernel.sysHookwallPre (utf8 "PING")) = .block ∧ appendedRows events = [] ∧
      ((dispatchEnvelope ((utf8 "PING").take 4) (utf8 "PING") 1).runOn serve Kernel.initial).2.appendSeqCounter =
        Kernel.initial.appendSeqCounter := by
  obtain ⟨events, trace, counter⟩ :=
    exists_trace_of_runOn (dispatchEnvelope ((utf8 "PING").take 4) (utf8 "PING") 1) Kernel.initial
  have rows := dispatchEnvelope_appends (show 4 ≤ (utf8 "PING").length by decide) trace
  rw [if_neg (by decide)] at rows
  rw [rows] at counter
  exact ⟨events, _, trace, by decide, rows, counter⟩

end Asolaria.Init
