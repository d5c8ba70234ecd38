import Asolaria.Library.Guard
import Asolaria.Library.Mailbox
import Asolaria.Library.Run
import Asolaria.Syscall.Kernel

namespace Asolaria.Syscall
open Library Envelope Vfs

abbrev KernelHistory := List (Transition Kernel KernelLabel)

/-- Any sequence of calls from the initial statics. -/
abbrev KernelRun (history : KernelHistory) (k : Kernel) : Prop := Run KernelStep Kernel.initial history k

/-- The envelope a successful send put on the bus. -/
def KernelLabel.sent? (k : Kernel) : KernelLabel → Option (List UInt8)
  | .envelopeSend env _ (.ok _) | .exec env (.ok _) => some env
  | .write fd buf (.ok _) => if k.fds.OnBus fd then some buf else none
  | _ => none

/-- What a successful receive was given, how many bytes it returned, and the
buffer it left behind. -/
def KernelLabel.receipt? (k : Kernel) : KernelLabel → Option (List UInt8 × Nat × List UInt8)
  | .envelopeRecv given _ (.ok n) buf => some (given, n, buf)
  | .read fd given _ (.ok n) buf => if k.fds.OnBus fd then some (given, n, buf) else none
  | _ => none

/-- The handle a successful `sys_exec` returned. -/
def KernelLabel.handle? : KernelLabel → Option UInt64
  | .exec _ (.ok handle) => some handle
  | _ => none

/-- The caller's buffer before and after the call. -/
def KernelLabel.buffer? : KernelLabel → Option (List UInt8 × List UInt8)
  | .read _ given _ _ buf | .envelopeRecv given _ _ buf => some (given, buf)
  | _ => none

/-- The call returned an error. -/
def KernelLabel.failed : KernelLabel → Bool
  | .read _ _ _ reply _ | .envelopeRecv _ _ reply _ | .write _ _ reply => !reply.isOk
  | .exec _ reply | .fork reply | .mmap _ _ reply | .time reply | .cosignAppend _ reply => !reply.isOk
  | .munmap _ _ reply | .envelopeSend _ _ reply | .hookwallPost _ _ reply => !reply.isOk
  | .vfsOpen _ _ reply => !reply.isOk
  | .vfsClose _ reply => !reply.isOk
  | .stateless _ => false

def sent (history : KernelHistory) : List (List UInt8) :=
  history.filterMap fun transition => transition.label.sent? transition.before

def receipts (history : KernelHistory) : List (List UInt8 × Nat × List UInt8) :=
  history.filterMap fun transition => transition.label.receipt? transition.before

def handles (history : KernelHistory) : List UInt64 := history.filterMap (·.label.handle?)

/-- Everything one call can do to the bus: stay off it or be refused, send an
envelope into the vacant slot, or receive the one that is there. -/
inductive KernelCase (k : Kernel) (label : KernelLabel) (after : Kernel) : Prop
  | aside : after.slot = k.slot → after.execHandleNext = k.execHandleNext →
      (label.failed = true → after.fds = k.fds) → label.sent? k = none → label.receipt? k = none →
      label.handle? = none → (∀ given buf, label.buffer? = some (given, buf) → buf = given) → KernelCase k label after
  | sent (env : List UInt8) : k.slot.state = .empty → after.slot.Holds env → label.failed = false →
      label.sent? k = some env → label.receipt? k = none →
      (label.handle? = none ∧ after.execHandleNext = k.execHandleNext ∨
        label.handle? = some k.execHandleNext ∧ after.execHandleNext = k.execHandleNext + 1) →
      (minEnvelopeBytes ≤ env.length ∨ ∃ fd reply, label = .write fd env reply ∧ k.fds.OnBus fd ∧ env ≠ []) →
      KernelCase k label after
  | received (env given : List UInt8) : k.slot.Holds env → after.slot.Vacant → label.failed = false →
      label.sent? k = none → label.receipt? k = some (given, env.length, env ++ given.drop env.length) →
      label.handle? = none → after.execHandleNext = k.execHandleNext → KernelCase k label after

variable {k : Kernel} {pending : Option (List UInt8)}

/-- A refused call leaves no trace in the queue. -/
theorem KernelLabel.silent_of_failed {label : KernelLabel} (fails : label.failed = true) :
    label.sent? k = none ∧ label.receipt? k = none ∧ label.handle? = none := by
  cases label with
  | read _ _ _ reply | write _ _ reply | exec _ reply | envelopeSend _ _ reply | envelopeRecv _ _ reply =>
    obtain ⟨error, rfl⟩ := exists_error fails
    exact ⟨rfl, rfl, rfl⟩
  | _ => exact ⟨rfl, rfl, rfl⟩

/-- A refusal that hands everything back as it was. -/
theorem KernelCase.refused {label : KernelLabel} (fails : label.failed = true)
    (kept : ∀ given buf, label.buffer? = some (given, buf) → buf = given) : KernelCase k label k := by
  obtain ⟨noSend, noReceipt, noHandle⟩ := KernelLabel.silent_of_failed fails
  exact .aside rfl rfl (fun _ => rfl) noSend noReceipt noHandle kept

/-- The calls with no way to the bus. -/
def KernelLabel.OffBus : KernelLabel → Prop
  | .read .. | .write .. | .exec .. | .envelopeSend .. | .envelopeRecv .. => False
  | _ => True

theorem KernelCase.offBus {label : KernelLabel} {after : Kernel} (off : label.OffBus) (slot : after.slot = k.slot)
    (counter : after.execHandleNext = k.execHandleNext) (fds : label.failed = true → after.fds = k.fds) :
    KernelCase k label after := by
  cases label with
  | read | write | exec | envelopeSend | envelopeRecv => exact off.elim
  | _ => exact .aside slot counter fds rfl rfl rfl fun _ _ lent => by cases lent

theorem unlent {label : KernelLabel} (noBuffer : label.buffer? = none) (given buf : List UInt8)
    (lent : label.buffer? = some (given, buf)) : buf = given := by
  cases noBuffer.symm.trans lent

theorem unwritten {label : KernelLabel} {lent : List UInt8} (same : label.buffer? = some (lent, lent))
    (given buf : List UInt8) (found : label.buffer? = some (given, buf)) : buf = given := by
  cases same.symm.trans found
  rfl

theorem Kernel.sysEnvelopeSend_case (k : Kernel) (env : List UInt8) (routeHint : UInt32) :
    KernelCase k (.envelopeSend env routeHint (k.sysEnvelopeSend env routeHint).1)
      (k.sysEnvelopeSend env routeHint).2 := by
  unfold Kernel.sysEnvelopeSend
  split
  · exact .refused rfl (unlent rfl)
  · next long =>
    have reached := dispatchEnqueueBytes_case k.slot env routeHint
    generalize dispatchEnqueueBytes k.slot env routeHint = outcome at reached
    cases reached with
    | oversize | occupied => exact .refused rfl (unlent rfl)
    | stored free holds => exact .sent env free holds rfl rfl rfl (.inl ⟨rfl, rfl⟩) (.inl (by omega))

theorem Kernel.sysExec_case (k : Kernel) (env : List UInt8) :
    KernelCase k (.exec env (k.sysExec env).1) (k.sysExec env).2 := by
  unfold Kernel.sysExec
  split
  · exact .refused rfl (unlent rfl)
  · next long =>
    have reached := dispatchEnqueueBytes_case k.slot env 0
    generalize dispatchEnqueueBytes k.slot env 0 = outcome at reached
    cases reached with
    | oversize | occupied => exact .refused rfl (unlent rfl)
    | stored free holds => exact .sent env free holds rfl rfl rfl (.inr ⟨rfl, rfl⟩) (.inl (by omega))

theorem Kernel.sysWrite_case (k : Kernel) (fd : UInt64) (buf : List UInt8) :
    KernelCase k (.write fd buf (k.sysWrite fd buf).1) (k.sysWrite fd buf).2 := by
  unfold Kernel.sysWrite
  split
  · exact .refused rfl (unlent rfl)
  · next present =>
    have nonempty : buf ≠ [] := by simpa using present
    by_cases bound : k.fds.OnBus fd
    · simp only [vfsWrite_onBus bound nonempty]
      have reached := dispatchEnqueueBytes_case k.slot buf 0
      generalize dispatchEnqueueBytes k.slot buf 0 = outcome at reached
      cases reached with
      | oversize | occupied => exact .refused rfl (unlent rfl)
      | stored free holds =>
        exact .sent buf free holds rfl (if_pos bound) rfl (.inl ⟨rfl, rfl⟩) (.inr ⟨fd, _, rfl, bound, nonempty⟩)
    · have stays : (vfsWrite k.slot k.fds fd buf).2 = k.slot := vfsWrite_offBus fun onBus => bound onBus.1
      have noSend : ∀ reply, (KernelLabel.write fd buf reply).sent? k = none := by
        intro reply
        cases reply with
        | error => rfl
        | ok => exact if_neg bound
      exact .aside stays rfl (fun _ => rfl) (noSend _) rfl rfl (unlent rfl)

theorem Kernel.sysEnvelopeRecv_case (settled : k.slot.Settled pending) (buf : List UInt8) (maxWaitNs : UInt64) :
    KernelCase k (.envelopeRecv buf maxWaitNs (k.sysEnvelopeRecv buf maxWaitNs).1 (k.sysEnvelopeRecv buf maxWaitNs).2.1)
      (k.sysEnvelopeRecv buf maxWaitNs).2.2 := by
  unfold Kernel.sysEnvelopeRecv
  split
  · exact .refused rfl (unwritten rfl)
  · have reached := dispatchDequeueBytes_case settled buf maxWaitNs
    generalize dispatchDequeueBytes k.slot buf maxWaitNs = outcome at reached
    cases reached with
    | nothing | short => exact .refused rfl (unwritten rfl)
    | @taken env after holds room vacant => exact .received env buf holds vacant rfl rfl rfl rfl rfl

/-- A free slot takes any envelope of an admissible size. -/
theorem Kernel.sysEnvelopeSend_free {env : List UInt8} (free : k.slot.state = .empty)
    (long : minEnvelopeBytes ≤ env.length) (short : env.length ≤ envelopeSlotBytes) (routeHint : UInt32) :
    (k.sysEnvelopeSend env routeHint).1 = .ok () ∧ (k.sysEnvelopeSend env routeHint).2.slot.Holds env := by
  obtain ⟨after, stored, holds⟩ := dispatchEnqueueBytes_free free short routeHint
  rw [Kernel.sysEnvelopeSend, if_neg (Nat.not_lt.mpr long), stored]
  exact ⟨rfl, holds⟩

theorem Kernel.sysEnvelopeSend_shortest {env : List UInt8} (free : k.slot.state = .empty) (length : env.length = minEnvelopeBytes)
    (routeHint : UInt32) :
    (k.sysEnvelopeSend env routeHint).1 = .ok () ∧ (k.sysEnvelopeSend env routeHint).2.slot.Holds env := by
  have short : env.length ≤ envelopeSlotBytes := by
    rw [length, minEnvelopeBytes, envelopeSlotBytes]
    omega
  exact Kernel.sysEnvelopeSend_free free (Nat.le_of_eq length.symm) short routeHint

theorem Kernel.sysEnvelopeRecv_takes {env buf : List UInt8} (holds : k.slot.Holds env) (lent : buf ≠ [])
    (room : env.length ≤ buf.length) (maxWaitNs : UInt64) :
    (k.sysEnvelopeRecv buf maxWaitNs).1 = .ok env.length ∧
      (k.sysEnvelopeRecv buf maxWaitNs).2.1 = env ++ buf.drop env.length ∧
      (k.sysEnvelopeRecv buf maxWaitNs).2.2.slot.Vacant := by
  obtain ⟨after, taken, vacant⟩ := dispatchDequeueBytes_takes holds room maxWaitNs
  rw [Kernel.sysEnvelopeRecv, if_neg (by simpa using lent), taken]
  exact ⟨rfl, rfl, vacant⟩

/-- An envelope that does not fit stays where it is. -/
theorem Kernel.sysEnvelopeRecv_oversize {env buf : List UInt8} (holds : k.slot.Holds env) (lent : buf ≠ [])
    (large : buf.length < env.length) (maxWaitNs : UInt64) :
    k.sysEnvelopeRecv buf maxWaitNs = (.error .invalid, buf, k) := by
  rw [Kernel.sysEnvelopeRecv, if_neg (by simpa using lent)]
  have reached := dispatchDequeueBytes_case (.holds holds) buf maxWaitNs
  generalize dispatchDequeueBytes k.slot buf maxWaitNs = outcome at reached
  cases reached with
  | nothing notFull => exact absurd holds.state notFull
  | short => rfl
  | taken other room =>
    rw [holds.unique other] at large
    omega

/-- The bytes of a buffer past the part that was lent stay as they are. -/
theorem overlay_lent {env buf : List UInt8} {len : Nat} (room : env.length ≤ (buf.take len).length) :
    env ++ (buf.take len).drop env.length ++ buf.drop len = env ++ buf.drop env.length := by
  have rest : (buf.take len).drop env.length ++ buf.drop len = buf.drop env.length := by
    rw [← List.drop_append_of_le_length room, List.take_append_drop]
  rw [List.append_assoc, rest]

theorem Kernel.sysRead_case (settled : k.slot.Settled pending) (fd : UInt64) (buf : List UInt8) (len : Nat) :
    KernelCase k (.read fd buf len (k.sysRead fd buf len).1 (k.sysRead fd buf len).2.1) (k.sysRead fd buf len).2.2 := by
  unfold Kernel.sysRead
  split
  · exact .refused rfl (unwritten rfl)
  · next range =>
    by_cases bound : k.fds.OnBus fd
    · simp only [vfsRead_onBus bound (Nat.le_of_not_lt range)]
      have reached := dispatchDequeueBytes_case settled (buf.take len) 0
      generalize dispatchDequeueBytes k.slot (buf.take len) 0 = outcome at reached
      cases reached with
      | nothing | short =>
        simp only [List.take_append_drop]
        exact .refused rfl (unwritten rfl)
      | @taken env after holds room vacant =>
        simp only [overlay_lent room]
        exact .received env buf holds vacant rfl rfl (if_pos bound) rfl rfl
    · have stays : (vfsRead k.slot k.fds fd buf len).2 = (buf, k.slot) := vfsRead_offBus fun onBus => bound onBus.1
      have noReceipt : ∀ reply after, (KernelLabel.read fd buf len reply after).receipt? k = none := by
        intro reply after
        cases reply with
        | error => rfl
        | ok => exact if_neg bound
      simp only [stays]
      exact .aside rfl rfl (fun _ => rfl) rfl (noReceipt _ _) rfl (unwritten rfl)

/-- Every call falls under one of the three cases. -/
theorem KernelStep.case {label : KernelLabel} {after : Kernel} (step : KernelStep k label after)
    (settled : k.slot.Settled pending) : KernelCase k label after := by
  cases step with
  | read fd buf len => exact Kernel.sysRead_case settled fd buf len
  | write fd buf => exact k.sysWrite_case fd buf
  | exec env => exact k.sysExec_case env
  | envelopeSend env routeHint => exact k.sysEnvelopeSend_case env routeHint
  | envelopeRecv buf maxWaitNs => exact Kernel.sysEnvelopeRecv_case settled buf maxWaitNs
  | munmap | time | stateless => exact .offBus trivial rfl rfl fun _ => rfl
  | fork =>
    unfold Kernel.sysFork
    split <;> exact .offBus trivial rfl rfl fun _ => rfl
  | mmap len prot =>
    unfold Kernel.sysMmap
    repeat' split
    all_goals exact .offBus trivial rfl rfl fun _ => rfl
  | hookwallPost env verdict =>
    unfold Kernel.sysHookwallPost
    split <;> exact .offBus trivial rfl rfl fun _ => rfl
  | cosignAppend row =>
    unfold Kernel.sysCosignAppend
    split <;> exact .offBus trivial rfl rfl fun _ => rfl
  | vfsOpen path mode =>
    refine .offBus trivial rfl rfl fun fails => ?_
    obtain ⟨error, fails⟩ := exists_error fails
    exact vfsOpen_error fails
  | vfsClose fd =>
    refine .offBus trivial rfl rfl fun fails => ?_
    obtain ⟨error, fails⟩ := exists_error fails
    exact vfsClose_error fails

/-- What the successful receives returned. -/
def received (history : KernelHistory) : List (List UInt8) :=
  (receipts history).map fun receipt => receipt.2.2.take receipt.2.1

theorem sent_append (history later : KernelHistory) : sent (history ++ later) = sent history ++ sent later :=
  List.filterMap_append

theorem receipts_append (history later : KernelHistory) :
    receipts (history ++ later) = receipts history ++ receipts later := List.filterMap_append

theorem received_append (history later : KernelHistory) :
    received (history ++ later) = received history ++ received later := by
  rw [received, receipts_append, List.map_append]
  rfl

theorem handles_append (history later : KernelHistory) :
    handles (history ++ later) = handles history ++ handles later := List.filterMap_append

/-- The bus as the calls so far have left it: settled, with the receives in
step with the sends, and each receive over its own prefix of the buffer only. -/
structure BusRecord (history : KernelHistory) (k : Kernel) (pending : Option (List UInt8)) : Prop where
  settled : k.slot.Settled pending
  delivered : Delivered (sent history) (received history) pending
  whole : ∀ given n buf, (given, n, buf) ∈ receipts history → ∃ env, n = env.length ∧ buf = env ++ given.drop n

variable {history : KernelHistory}

theorem BusRecord.step {label : KernelLabel} {after : Kernel} (record : BusRecord history k pending)
    (step : KernelStep k label after) : ∃ pending', BusRecord (history ++ [⟨k, label, after⟩]) after pending' := by
  obtain ⟨settled, delivered, whole⟩ := record
  cases step.case settled with
  | aside slot _ _ noSend noReceipt =>
    have sends : sent [⟨k, label, after⟩] = [] := List.filterMap_cons_none noSend
    have receives : receipts [⟨k, label, after⟩] = [] := List.filterMap_cons_none noReceipt
    have taken : received [⟨k, label, after⟩] = [] := by rw [received, receives, List.map_nil]
    refine ⟨pending, by rwa [slot], ?_, ?_⟩
    · rw [sent_append, received_append, sends, taken]
      exact delivered.step .quiet
    · rw [receipts_append, receives, List.append_nil]
      exact whole
  | sent env free holds _ send noReceipt =>
    obtain rfl := settled.eq_none free
    have sends : sent [⟨k, label, after⟩] = [env] := List.filterMap_cons_some send
    have receives : receipts [⟨k, label, after⟩] = [] := List.filterMap_cons_none noReceipt
    have taken : received [⟨k, label, after⟩] = [] := by rw [received, receives, List.map_nil]
    refine ⟨some env, .holds holds, ?_, ?_⟩
    · rw [sent_append, received_append, sends, taken]
      exact delivered.step .send
    · rw [receipts_append, receives, List.append_nil]
      exact whole
  | received env given holds vacant _ noSend receipt =>
    obtain ⟨other, rfl, holds'⟩ := settled.exists_holds holds.state
    obtain rfl := holds.unique holds'
    have sends : sent [⟨k, label, after⟩] = [] := List.filterMap_cons_none noSend
    have receives : receipts [⟨k, label, after⟩] = [(given, env.length, env ++ given.drop env.length)] :=
      List.filterMap_cons_some receipt
    have taken : received [⟨k, label, after⟩] = [env] := by
      rw [received, receives, List.map_singleton, List.take_left]
    refine ⟨none, .vacant vacant, ?_, ?_⟩
    · rw [sent_append, received_append, sends, taken]
      exact delivered.step .receive
    · rw [receipts_append, receives]
      intro given' n buf member
      rcases List.mem_append.mp member with old | new
      · exact whole given' n buf old
      · cases List.mem_singleton.mp new
        exact ⟨env, rfl, rfl⟩

theorem KernelRun.record (run : KernelRun history k) : ∃ pending, BusRecord history k pending := by
  induction run with
  | start => exact ⟨none, .vacant Slot.initial_vacant, Delivered.start, fun _ _ _ member => by cases member⟩
  | @next history k label after _ step ih =>
    obtain ⟨pending, record⟩ := ih
    exact record.step step

/-- A recorded call, with the run that led to it. -/
theorem KernelRun.recorded_case (run : KernelRun history k) {before after : KernelHistory}
    {transition : Transition Kernel KernelLabel} (recorded : history = before ++ transition :: after) :
    KernelRun before transition.before ∧ KernelStep transition.before transition.label transition.after ∧
      KernelCase transition.before transition.label transition.after := by
  obtain ⟨earlier, step⟩ := run.split recorded
  obtain ⟨_, record⟩ := KernelRun.record earlier
  exact ⟨earlier, step, step.case record.settled⟩

end Asolaria.Syscall
