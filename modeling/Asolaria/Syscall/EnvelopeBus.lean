import Asolaria.Syscall.KernelRun

namespace Asolaria.Syscall
open Library Envelope Vfs

/-- All entry points act on one capacity-one queue: the receives return what
the sends sent, in order and over that prefix of the buffer only, the depth is
the difference, the `sys_exec` handles count from one, and a refused call
changes nothing. -/
structure BusContract (history : KernelHistory) (k : Kernel) : Prop where
  fifo : ∀ (i : Nat) (given : List UInt8) (n : Nat) (buf : List UInt8), (receipts history)[i]? = some (given, n, buf) →
    ∃ env : List UInt8, (sent history)[i]? = some env ∧ n = env.length ∧ buf = env ++ given.drop n
  depth : (sent history).length = (receipts history).length + queueDepth k.slot ∧ queueDepth k.slot ≤ 1
  handle : ∀ (i : Nat) (handle : UInt64), (handles history)[i]? = some handle → handle.toNat = i + 1
  refusal : ∀ transition ∈ history, transition.label.failed = true →
    transition.after.slot = transition.before.slot ∧ transition.after.fds = transition.before.fds ∧
    transition.after.execHandleNext = transition.before.execHandleNext ∧
    ∀ given buf, transition.label.buffer? = some (given, buf) → buf = given

/-- A `sys_exec` with an acceptable envelope finds the slot free and the
handle counter wrapped around to the reserved value. -/
def WrappedExec (k : Kernel) (label : KernelLabel) : Prop :=
  ∃ env reply, label = .exec env reply ∧ minEnvelopeBytes ≤ env.length ∧ env.length ≤ envelopeSlotBytes ∧
    k.slot.state = .empty ∧ k.execHandleNext = 0

variable {history : KernelHistory} {k : Kernel}

theorem Kernel.sysExec_accepts {env : List UInt8} (long : minEnvelopeBytes ≤ env.length)
    (fits : env.length ≤ envelopeSlotBytes) (free : k.slot.state = .empty) :
    (k.sysExec env).1 = .ok k.execHandleNext ∧ (k.sysExec env).2.slot.Holds env := by
  obtain ⟨after, stored, holds⟩ := dispatchEnqueueBytes_free free fits 0
  rw [Kernel.sysExec, if_neg (Nat.not_lt.mpr long), stored]
  exact ⟨rfl, holds⟩

theorem KernelCase.handle {label : KernelLabel} {after : Kernel} (effect : KernelCase k label after) :
    label.handle? = none ∧ after.execHandleNext = k.execHandleNext ∨
      label.handle? = some k.execHandleNext ∧ after.execHandleNext = k.execHandleNext + 1 := by
  cases effect with
  | aside _ counter _ _ _ noHandle => exact .inl ⟨noHandle, counter⟩
  | sent _ _ _ _ _ _ minted => exact minted
  | received _ _ _ _ _ _ _ noHandle counter => exact .inl ⟨noHandle, counter⟩

/-- A call that mints the reserved handle is a wrapped exec, and the other
way round. -/
theorem KernelStep.wrapped_iff {label : KernelLabel} {after : Kernel} (step : KernelStep k label after) :
    WrappedExec k label ↔ label.handle? = some 0 := by
  constructor
  · intro wrapped
    obtain ⟨env, reply, rfl, long, fits, free, zero⟩ := wrapped
    cases step
    rw [(Kernel.sysExec_accepts long fits free).1, zero]
    rfl
  · intro minted
    cases step with
    | exec env =>
      unfold Kernel.sysExec at minted ⊢
      split at minted
      · cases minted
      · next long =>
        have reached := dispatchEnqueueBytes_case k.slot env 0
        generalize dispatchEnqueueBytes k.slot env 0 = outcome at reached minted
        cases reached with
        | oversize | occupied => cases minted
        | stored free holds =>
          exact ⟨env, _, rfl, by omega, holds.fits, free, Option.some.inj minted⟩
    | _ => cases minted

/-- The handle counter and every handle minted so far, up to wrapping. -/
theorem KernelRun.handles_eq (run : KernelRun history k) :
    k.execHandleNext = UInt64.ofNat ((handles history).length + 1) ∧
      ∀ i handle, (handles history)[i]? = some handle → handle = UInt64.ofNat (i + 1) := by
  induction run with
  | start => exact ⟨rfl, fun _ _ none => by cases none⟩
  | @next history k label after previous step ih =>
    obtain ⟨next, minted⟩ := ih
    obtain ⟨_, record⟩ := KernelRun.record previous
    rcases (step.case record.settled).handle with ⟨noHandle, counter⟩ | ⟨handle, counter⟩
    · have none : handles [⟨k, label, after⟩] = [] := List.filterMap_cons_none noHandle
      rw [handles_append, none, List.append_nil, counter]
      exact ⟨next, minted⟩
    · have one : handles [⟨k, label, after⟩] = [k.execHandleNext] := List.filterMap_cons_some handle
      rw [handles_append, one, List.length_append, List.length_singleton, counter, next]
      refine ⟨(UInt64.ofNat_add _ 1).symm, ?_⟩
      intro i handle found
      rcases Nat.lt_or_ge i (handles history).length with old | new
      · rw [List.getElem?_append_left old] at found
        exact minted i handle found
      · rw [List.getElem?_append_right new] at found
        obtain ⟨index, value⟩ := List.getElem?_eq_some_iff.mp found
        simp only [List.length_singleton, Nat.lt_one_iff] at index
        obtain rfl : i = (handles history).length := by omega
        simpa [index] using value.symm

/-- Handles count from one exactly as long as the reserved one is not minted. -/
theorem KernelRun.handle_iff (run : KernelRun history k) :
    (∀ (i : Nat) (handle : UInt64), (handles history)[i]? = some handle → handle.toNat = i + 1) ↔ 0 ∉ handles history := by
  obtain ⟨_, minted⟩ := run.handles_eq
  constructor
  · intro counts member
    obtain ⟨i, found⟩ := List.mem_iff_getElem?.mp member
    have count := counts i 0 found
    simp at count
  · intro absent i handle found
    have small : i + 1 < 2 ^ 64 := by
      by_contra large
      have range : 2 ^ 64 - 1 < (handles history).length := by
        have inside := (List.getElem?_eq_some_iff.mp found).1
        omega
      have reserved := minted (2 ^ 64 - 1) _ (List.getElem?_eq_getElem range)
      have zero : UInt64.ofNat (2 ^ 64 - 1 + 1) = 0 := by decide
      exact absent (zero ▸ reserved ▸ List.getElem_mem range)
    rw [minted i handle found, UInt64.toNat_ofNat_of_lt' small]

theorem KernelRun.no_wrapped_iff (run : KernelRun history k) :
    (∀ transition ∈ history, ¬ WrappedExec transition.before transition.label) ↔ 0 ∉ handles history := by
  constructor
  · intro none member
    obtain ⟨transition, recorded, minted⟩ := List.mem_filterMap.mp member
    exact none transition recorded ((run.step_of_mem recorded).wrapped_iff.mpr minted)
  · intro absent transition recorded wrapped
    exact absent (List.mem_filterMap.mpr ⟨transition, recorded, (run.step_of_mem recorded).wrapped_iff.mp wrapped⟩)

theorem KernelRun.fifo (run : KernelRun history k) {i n : Nat} {given buf : List UInt8}
    (found : (receipts history)[i]? = some (given, n, buf)) :
    ∃ env : List UInt8, (sent history)[i]? = some env ∧ n = env.length ∧ buf = env ++ given.drop n := by
  obtain ⟨pending, record⟩ := run.record
  obtain ⟨env, rfl, rfl⟩ := record.whole given n buf (List.mem_of_getElem? found)
  have content : (received history)[i]? = some env := by
    rw [received, List.getElem?_map, found, Option.map_some, List.take_left]
  have range := (List.getElem?_eq_some_iff.mp content).1
  refine ⟨env, ?_, rfl, rfl⟩
  rw [show sent history = received history ++ pending.toList from record.delivered, List.getElem?_append_left range,
    content]

theorem KernelRun.depth (run : KernelRun history k) :
    (sent history).length = (receipts history).length + queueDepth k.slot ∧ queueDepth k.slot ≤ 1 := by
  obtain ⟨pending, record⟩ := run.record
  have count := record.delivered.length
  have deep := record.settled.queueDepth_eq
  have atMost : pending.toList.length ≤ 1 := by cases pending <;> simp
  rw [received, List.length_map] at count
  omega

/-- With one place in the queue the threshold of the gc trigger is out of
reach. -/
theorem KernelRun.no_gc (run : KernelRun history k) : shouldTriggerGc k.slot = false := by
  have deep := run.depth.2
  have far : ¬ queueDepth k.slot ≥ envelopeQueueCapacity * envelopeGcTriggerPct / 100 := by
    have threshold : envelopeQueueCapacity * envelopeGcTriggerPct / 100 = 12288 := rfl
    omega
  exact decide_eq_false far

theorem KernelRun.refusal (run : KernelRun history k) {transition : Transition Kernel KernelLabel}
    (member : transition ∈ history) (fails : transition.label.failed = true) :
    transition.after.slot = transition.before.slot ∧ transition.after.fds = transition.before.fds ∧
    transition.after.execHandleNext = transition.before.execHandleNext ∧
    ∀ given buf, transition.label.buffer? = some (given, buf) → buf = given := by
  obtain ⟨before, after, recorded⟩ := List.append_of_mem member
  cases (run.recorded_case recorded).2.2 with
  | aside slot counter fds _ _ _ kept => exact ⟨slot, fds fails, counter, kept⟩
  | sent _ _ _ succeeds => cases fails.symm.trans succeeds
  | received _ _ _ _ succeeds => cases fails.symm.trans succeeds

/-- Over any sequence of calls the bus contract holds exactly when no accepted
`sys_exec` starts with the handle counter wrapped around to zero. -/
theorem KernelRun.bus_contract_iff (run : KernelRun history k) :
    BusContract history k ↔ ∀ transition ∈ history, ¬ WrappedExec transition.before transition.label := by
  rw [run.no_wrapped_iff, ← run.handle_iff]
  constructor
  · intro contract
    exact contract.handle
  · intro counts
    exact ⟨fun _ _ _ _ => run.fifo, run.depth, counts, fun _ => run.refusal⟩

/-- An envelope of the least size the syscall layer accepts. -/
def zeroShell : List UInt8 := List.replicate minEnvelopeBytes 0

/-- Any number of rounds of `sys_exec` and `sys_envelope_recv`. -/
theorem exec_rounds (n : Nat) : ∃ history k, KernelRun history k ∧ (handles history).length = n ∧
    k.slot.state = .empty := by
  induction n with
  | zero => exact ⟨[], Kernel.initial, .start, rfl, rfl⟩
  | succ n ih =>
    obtain ⟨history, k, run, count, free⟩ := ih
    have long : minEnvelopeBytes ≤ zeroShell.length := by decide
    have fits : zeroShell.length ≤ envelopeSlotBytes := by decide
    obtain ⟨accepted, holds⟩ := Kernel.sysExec_accepts long fits free
    have executed := Run.next run (KernelStep.exec (k := k) zeroShell)
    have minted : (handles (history ++ [⟨k, .exec zeroShell (k.sysExec zeroShell).1, (k.sysExec zeroShell).2⟩])).length =
        n + 1 := by
      rw [handles_append, accepted, List.length_append, count]
      rfl
    generalize (k.sysExec zeroShell).2 = loaded at *
    have filled : zeroShell ≠ [] := by decide
    have emptied := (Kernel.sysEnvelopeRecv_takes holds filled (Nat.le_refl _) 0).2.2
    have received := Run.next executed (KernelStep.envelopeRecv (k := loaded) zeroShell 0)
    refine ⟨_, _, received, ?_, emptied.state⟩
    rw [handles_append, List.length_append, minted]
    rfl

theorem bus_contract_oneExec : ∃ history k, KernelRun history k ∧ handles history = [1] ∧ BusContract history k := by
  obtain ⟨history, k, run, count, _⟩ := exec_rounds 1
  obtain ⟨handle, single⟩ := List.length_eq_one_iff.mp count
  obtain rfl : handle = 1 := run.handles_eq.2 0 handle (by rw [single]; rfl)
  have unreserved : 0 ∉ handles history := by
    rw [single]
    decide
  exact ⟨history, k, run, single, run.bus_contract_iff.mpr (run.no_wrapped_iff.mpr unreserved)⟩

/-- The 2^64-th successful `sys_exec` returns the reserved handle zero. -/
theorem exec_handles_wrap : ¬ ∀ history k, KernelRun history k → BusContract history k := by
  intro contracts
  obtain ⟨history, k, run, count, _⟩ := exec_rounds (2 ^ 64)
  have range : 2 ^ 64 - 1 < (handles history).length := by omega
  have found := List.getElem?_eq_getElem range
  have reserved : (handles history)[2 ^ 64 - 1] = 0 := run.handles_eq.2 (2 ^ 64 - 1) _ found
  have counted := (contracts history k run).handle (2 ^ 64 - 1) _ found
  rw [reserved] at counted
  simp at counted

end Asolaria.Syscall
