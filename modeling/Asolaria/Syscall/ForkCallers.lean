import Asolaria.Library.Interleaving
import Asolaria.Library.MachineInt
import Asolaria.Syscall.Services
import Mathlib.Data.List.Nodup
import Mathlib.Data.List.Perm.Subperm

namespace Asolaria.Syscall
open Library

/-- The stack frames of the calls that wait between their two atomic operations.
They lie at different addresses, aligned to 16 bytes. -/
structure StackFrames where
  frames : List UInt64
  distinct : frames.Nodup
  aligned : ∀ frame ∈ frames, frame.toNat % 16 = 0

namespace StackFrames

def empty : StackFrames := ⟨[], .nil, by simp⟩

def push (stack : StackFrames) (frame : UInt64) (fresh : frame ∉ stack.frames) (aligned : frame.toNat % 16 = 0) :
    StackFrames where
  frames := frame :: stack.frames
  distinct := List.nodup_cons.mpr ⟨fresh, stack.distinct⟩
  aligned := List.forall_mem_cons.mpr ⟨aligned, stack.aligned⟩

def pop (stack : StackFrames) (frame : UInt64) : StackFrames where
  frames := stack.frames.erase frame
  distinct := stack.distinct.erase frame
  aligned := fun other member => stack.aligned other (List.mem_of_mem_erase member)

/-- There is room for fewer frames than a counter can count. -/
theorem length_le (stack : StackFrames) : stack.frames.length ≤ 2 ^ 60 := by
  have distinct : (stack.frames.map fun frame => frame.toNat / 16).Nodup := by
    refine stack.distinct.map_on fun left leftIn right rightIn same => UInt64.toNat_inj.mp ?_
    have := stack.aligned left leftIn
    have := stack.aligned right rightIn
    omega
  have inside : (stack.frames.map fun frame => frame.toNat / 16) ⊆ List.range (2 ^ 60) := by
    intro index member
    obtain ⟨frame, _, rfl⟩ := List.mem_map.mp member
    have := frame.toNat_lt
    exact List.mem_range.mpr (by omega)
  have fits := (distinct.subperm inside).length_le
  rwa [List.length_map, List.length_range] at fits

end StackFrames

/-- `SPAWN_CHILD_COUNTER`, and the memory of the calls that are about to store to
it. -/
structure ForkShared where
  counter : UInt64
  stack : StackFrames

/-- Where a caller of `spawn_child_agent` stands: a call returns at its
`fetch_add`, or goes on to the saturating store. -/
inductive ForkLocation
  | idle
  | store (frame : UInt64)

/-- What a step of a caller shows: the value its `fetch_add` saw, and the result
if the call ends here. -/
structure ForkLabel where
  seen : Option UInt64
  returned : Option (Except AgentErr UInt64)

inductive ForkCallerStep : ForkShared → ForkLocation → ForkLabel → ForkShared → ForkLocation → Prop
  | reserved {shared : ForkShared} : shared.counter.toNat < agentRegistryMax →
      ForkCallerStep shared .idle ⟨some shared.counter, some (.ok (shared.counter + 1))⟩
        { shared with counter := shared.counter + 1 } .idle
  | saturated {shared : ForkShared} (frame : UInt64) (fresh : frame ∉ shared.stack.frames)
      (aligned : frame.toNat % 16 = 0) : agentRegistryMax ≤ shared.counter.toNat →
      ForkCallerStep shared .idle ⟨some shared.counter, none⟩
        ⟨shared.counter + 1, shared.stack.push frame fresh aligned⟩ (.store frame)
  | stored {shared : ForkShared} {frame : UInt64} : ForkCallerStep shared (.store frame)
      ⟨none, some (.error .registryFull)⟩ ⟨UInt64.ofNat agentRegistryMax, shared.stack.pop frame⟩ .idle

abbrev ForkThreads (ι : Type) := Threads ι ForkShared ForkLocation

abbrev ForkHistory (ι : Type) := List (Transition (ForkThreads ι) (ι × ForkLabel))

/-- Any interleaving of any number of callers, from the counter at zero. -/
abbrev ForkRun {ι : Type} [DecidableEq ι] (history : ForkHistory ι) (threads : ForkThreads ι) : Prop :=
  Run (InterleavedStep ForkCallerStep) ⟨⟨0, .empty⟩, fun _ => .idle⟩ history threads

def ForkLabel.handle? (label : ForkLabel) : Option UInt64 :=
  match label.returned with
  | some (.ok handle) => some handle
  | _ => none

variable {ι : Type} {history : ForkHistory ι} {threads : ForkThreads ι}

/-- The handles returned, in the order of the `fetch_add`s. -/
def forked (history : ForkHistory ι) : List UInt64 := history.filterMap fun step => step.label.2.handle?

theorem forked_next (history : ForkHistory ι) (step : Transition (ForkThreads ι) (ι × ForkLabel)) :
    forked (history ++ [step]) = forked history ++ step.label.2.handle?.toList := by
  rw [forked, List.filterMap_append, filterMap_single]
  rfl

/-- The counter against the handles. While it counts, nobody is about to store;
once it is full it never falls back below the limit. -/
inductive CounterPhase (count : Nat) (threads : ForkThreads ι) : Prop
  | counting : threads.shared.counter.toNat = count → (∀ i, threads.locals i = .idle) → CounterPhase count threads
  | full : count = agentRegistryMax → agentRegistryMax ≤ threads.shared.counter.toNat →
      threads.shared.counter.toNat ≤ agentRegistryMax + threads.shared.stack.frames.length → CounterPhase count threads

structure HandleRecord (handles : List UInt64) (threads : ForkThreads ι) : Prop where
  ordered : handles.map UInt64.toNat = List.range' 1 handles.length
  bounded : handles.length ≤ agentRegistryMax
  phase : CounterPhase handles.length threads

variable {handles : List UInt64} {label : ForkLabel} {shared : ForkShared} {location next : ForkLocation} {i : ι}

/-- Up to the limit and one per waiting call, the counter does not wrap. -/
theorem toNat_counter_succ (bound : shared.counter.toNat ≤ agentRegistryMax + shared.stack.frames.length) :
    (shared.counter + 1).toNat = shared.counter.toNat + 1 := by
  have frames := shared.stack.length_le
  have limit : agentRegistryMax = 10000 := rfl
  refine toNat_add_of_lt ?_
  show shared.counter.toNat + 1 < 2 ^ 64
  omega

theorem CounterPhase.counter_le {count : Nat} (phase : CounterPhase count threads) (bounded : count ≤ agentRegistryMax) :
    threads.shared.counter.toNat ≤ agentRegistryMax + threads.shared.stack.frames.length := by
  cases phase with
  | counting counted => omega
  | full _ _ high => exact high

/-- A `fetch_add` below the limit is made while the counter still counts. -/
theorem CounterPhase.counted {count : Nat} (phase : CounterPhase count threads)
    (room : threads.shared.counter.toNat < agentRegistryMax) :
    threads.shared.counter.toNat = count ∧ ∀ i, threads.locals i = .idle := by
  cases phase with
  | counting counted idle => exact ⟨counted, idle⟩
  | full _ low => omega

/-- A `fetch_add` at the limit or above it comes after all handles are gone. -/
theorem HandleRecord.all_gone (record : HandleRecord handles threads)
    (full : agentRegistryMax ≤ threads.shared.counter.toNat) : handles.length = agentRegistryMax := by
  have bounded := record.bounded
  cases record.phase with
  | counting counted => omega
  | full gone => exact gone

variable [DecidableEq ι]

theorem HandleRecord.reserved (record : HandleRecord handles threads)
    (room : threads.shared.counter.toNat < agentRegistryMax) (i : ι) :
    HandleRecord (handles ++ [threads.shared.counter + 1])
      (threads.place i { threads.shared with counter := threads.shared.counter + 1 } .idle) := by
  obtain ⟨counted, idle⟩ := record.phase.counted room
  have succ := toNat_counter_succ (record.phase.counter_le record.bounded)
  have length : (handles ++ [threads.shared.counter + 1]).length = handles.length + 1 := by
    rw [List.length_append, List.length_singleton]
  refine ⟨?_, by omega, .counting ?_ ?_⟩
  · rw [List.map_append, List.map_singleton, record.ordered, succ, counted, length, List.range'_concat]
    simp [Nat.add_comm]
  · rw [length, ← counted]
    exact succ
  · intro other
    show Function.update threads.locals i .idle other = .idle
    by_cases same : other = i
    · rw [same, Function.update_self]
    · rw [Function.update_of_ne same, idle]

theorem HandleRecord.saturated (record : HandleRecord handles threads) {frame : UInt64}
    (fresh : frame ∉ threads.shared.stack.frames) (aligned : frame.toNat % 16 = 0)
    (limit : agentRegistryMax ≤ threads.shared.counter.toNat) (i : ι) : HandleRecord handles
      (threads.place i ⟨threads.shared.counter + 1, threads.shared.stack.push frame fresh aligned⟩ (.store frame)) := by
  have bound := record.phase.counter_le record.bounded
  have succ := toNat_counter_succ bound
  refine ⟨record.ordered, record.bounded, .full (record.all_gone limit) ?_ ?_⟩
  · show agentRegistryMax ≤ (threads.shared.counter + 1).toNat
    omega
  · show (threads.shared.counter + 1).toNat ≤ agentRegistryMax + (threads.shared.stack.frames.length + 1)
    omega

theorem HandleRecord.stored (record : HandleRecord handles threads) {frame : UInt64} {i : ι}
    (here : threads.locals i = .store frame) : HandleRecord handles
      (threads.place i ⟨UInt64.ofNat agentRegistryMax, threads.shared.stack.pop frame⟩ .idle) := by
  have limit : (UInt64.ofNat agentRegistryMax).toNat = agentRegistryMax := rfl
  have gone : handles.length = agentRegistryMax := by
    cases record.phase with
    | counting _ idle => cases here.symm.trans (idle i)
    | full gone => exact gone
  refine ⟨record.ordered, record.bounded, .full gone ?_ ?_⟩
  · exact Nat.le_of_eq limit.symm
  · show (UInt64.ofNat agentRegistryMax).toNat ≤ _
    omega

theorem HandleRecord.step {label : ι × ForkLabel} {after : ForkThreads ι} (record : HandleRecord handles threads)
    (step : InterleavedStep ForkCallerStep threads label after) :
    HandleRecord (handles ++ label.2.handle?.toList) after := by
  cases step with
  | @act i label shared location moved =>
    generalize here : threads.locals i = start at moved
    cases moved with
    | reserved room => exact record.reserved room i
    | saturated frame fresh aligned limit =>
      rw [ForkLabel.handle?, Option.toList_none, List.append_nil]
      exact record.saturated fresh aligned limit i
    | stored =>
      rw [ForkLabel.handle?, Option.toList_none, List.append_nil]
      exact record.stored here

theorem ForkRun.record (run : ForkRun history threads) : HandleRecord (forked history) threads := by
  induction run with
  | start => exact ⟨rfl, Nat.zero_le _, .counting rfl fun _ => rfl⟩
  | next _ step ih =>
    rw [forked_next]
    exact ih.step step

/-- What the callers may rely on. -/
structure ForkContract (history : ForkHistory ι) : Prop where
  distinct : (forked history).Nodup
  range : ∀ handle ∈ forked history, 1 ≤ handle.toNat ∧ handle.toNat ≤ 10000
  first : ∀ k ≤ (forked history).length, ((forked history).take k).map UInt64.toNat = List.range' 1 k
  closed : ∀ before call after seen, history = before ++ call :: after → call.label.2.seen = some seen →
    agentRegistryMax ≤ seen.toNat → ∀ later ∈ after, later.label.2.handle? = none

theorem ForkCallerStep.seen_eq {label : ForkLabel} {after : ForkShared} {seen : UInt64}
    (step : ForkCallerStep shared location label after next) (saw : label.seen = some seen) : seen = shared.counter := by
  cases step with
  | reserved | saturated => exact (Option.some.inj saw).symm
  | stored => cases saw

/-- All handles are gone when a `fetch_add` sees the limit, and there are none
left for those that come later. -/
theorem ForkRun.closed (run : ForkRun history threads) {before after : ForkHistory ι}
    {call : Transition (ForkThreads ι) (ι × ForkLabel)} {seen : UInt64} (parts : history = before ++ call :: after)
    (saw : call.label.2.seen = some seen) (limit : agentRegistryMax ≤ seen.toNat) :
    ∀ later ∈ after, later.label.2.handle? = none := by
  obtain ⟨earlier, step⟩ := run.split parts
  rw [step.act_shared.seen_eq saw] at limit
  have gone := (ForkRun.record earlier).all_gone limit
  have bounded := (ForkRun.record run).bounded
  intro later member
  by_contra granted
  obtain ⟨handle, found⟩ := Option.ne_none_iff_exists'.mp granted
  have one : handle ∈ after.filterMap fun step => step.label.2.handle? := List.mem_filterMap.mpr ⟨later, member, found⟩
  have more := List.length_pos_of_mem one
  have lengths : (forked history).length ≥ (forked before).length +
      (after.filterMap fun step => step.label.2.handle?).length := by
    rw [parts, List.append_cons, forked, List.filterMap_append, List.filterMap_append, List.length_append,
      List.length_append]
    show _ ≥ (forked before).length + _
    rw [forked]
    omega
  omega

/-- For every interleaving of any number of callers the handles are 1, 2, 3 and
so on up to the limit, and none is given out after a call has seen it. -/
theorem ForkRun.handles_in_order (run : ForkRun history threads) : ForkContract history := by
  have record := ForkRun.record run
  refine { distinct := ?_, range := ?_, first := ?_, closed := ?_ }
  · have numbers : ((forked history).map UInt64.toNat).Nodup := by
      rw [record.ordered]
      exact List.nodup_range'
    exact numbers.of_map
  · intro handle member
    have listed : handle.toNat ∈ (forked history).map UInt64.toNat := List.mem_map_of_mem member
    rw [record.ordered, List.mem_range'_1] at listed
    have bounded : (forked history).length ≤ 10000 := record.bounded
    omega
  · intro k within
    rw [List.map_take, record.ordered, List.take_range'_of_length_ge within]
  · intro before call after seen parts saw limit
    exact ForkRun.closed run parts saw limit

/-- One caller takes the first handles. -/
theorem forks_run {n : Nat} (few : n ≤ agentRegistryMax) :
    ∃ history, ForkRun history (⟨⟨UInt64.ofNat n, .empty⟩, fun _ => .idle⟩ : ForkThreads Bool) ∧
      (forked history).length = n := by
  induction n with
  | zero => exact ⟨[], .start, rfl⟩
  | succ n ih =>
    obtain ⟨history, run, handles⟩ := ih (Nat.le_of_succ_le few)
    have limit : agentRegistryMax = 10000 := rfl
    have below : (UInt64.ofNat n).toNat < agentRegistryMax := by
      rw [UInt64.toNat_ofNat']
      omega
    have taken := run.next (.act (i := true) (.reserved below))
    have rests : (⟨⟨UInt64.ofNat n, .empty⟩, fun _ => .idle⟩ : ForkThreads Bool).place true
        ⟨UInt64.ofNat n + 1, .empty⟩ .idle = ⟨⟨UInt64.ofNat (n + 1), .empty⟩, fun _ => .idle⟩ := by
      rw [UInt64.ofNat_add]
      exact congrArg (Threads.mk _) (Function.update_eq_self true _)
    rw [rests] at taken
    refine ⟨_, taken, ?_⟩
    rw [forked_next, List.length_append, handles]
    rfl

/-- All handles are taken, and then two callers at once are refused. -/
theorem forks_in_order_full : ∃ (history : ForkHistory Bool) (threads : ForkThreads Bool),
    ForkRun history threads ∧ (forked history).length = 10000 ∧ ForkContract history ∧
      threads.shared.counter = 10000 ∧
      ∀ caller, ∃ step ∈ history, step.label = (caller, ⟨none, some (.error .registryFull)⟩) := by
  obtain ⟨history, run, handles⟩ := forks_run (Nat.le_refl agentRegistryMax)
  have first := run.next (.act (i := true) (.saturated 0 List.not_mem_nil rfl (by decide)))
  have second := first.next (.act (i := false)
    (show ForkCallerStep _ .idle _ _ _ from .saturated 16 (by decide) rfl (by decide)))
  have stored := second.next (.act (i := true) (show ForkCallerStep _ (.store 0) _ _ _ from .stored))
  have full := stored.next (.act (i := false) (show ForkCallerStep _ (.store 16) _ _ _ from .stored))
  refine ⟨_, _, full, ?_, ForkRun.handles_in_order full, rfl, ?_⟩
  · rw [forked_next, forked_next, forked_next, forked_next]
    simpa [ForkLabel.handle?, agentRegistryMax] using handles
  · rintro (_ | _)
    · exact ⟨_, List.mem_append_right _ (List.mem_singleton_self _), rfl⟩
    · exact ⟨_, List.mem_append_left _ (List.mem_append_right _ (List.mem_singleton_self _)), rfl⟩

/-- A call that nobody interferes with is `spawn_child_agent` as one operation. -/
theorem spawnChildAgent_alone (counter : UInt64) :
    ∃ history, Run (SoloStep ForkCallerStep) (⟨counter, .empty⟩, .idle) history
      (⟨(spawnChildAgent counter).2, .empty⟩, .idle) ∧
      history.filterMap (fun step => step.label.returned) = [(spawnChildAgent counter).1] := by
  unfold spawnChildAgent
  by_cases full : counter.toNat ≥ agentRegistryMax
  · rw [if_pos full]
    have waits : SoloStep ForkCallerStep (⟨counter, .empty⟩, .idle) ⟨some counter, none⟩
      (⟨counter + 1, StackFrames.empty.push 0 (by simp [StackFrames.empty]) rfl⟩, .store 0) := .saturated 0 _ _ full
    have stores : SoloStep ForkCallerStep
        (⟨counter + 1, StackFrames.empty.push 0 (by simp [StackFrames.empty]) rfl⟩, .store 0)
        ⟨none, some (.error .registryFull)⟩ (⟨UInt64.ofNat agentRegistryMax, .empty⟩, .idle) := .stored
    exact ⟨_, .next (.next .start waits) stores, rfl⟩
  · rw [if_neg full]
    exact ⟨_, .next .start (.reserved (Nat.not_le.mp full)), rfl⟩

end Asolaria.Syscall
