import Asolaria.Init.WedgedBus
import Asolaria.Syscall.EnvelopeBus

namespace Asolaria.Init
open Library Envelope Syscall

variable {k : Kernel} {typePrefix payload : List UInt8} {seq : UInt64}

/-- An envelope with the type and the fields of a reply to `EXEC`: a complaint,
or an `EOKx` with the handle that `sys_exec` answered, under this sequence
number. -/
structure ExecReply (answer : Except SyscallErr UInt64) (seq : UInt64) (env : List UInt8) : Prop where
  seqField : (env.drop 4).take 8 = leBytes seq
  type : env.take 4 = utf8 "EERR" ∨
    env.take 4 = utf8 "EOKx" ∧ ∃ handle, answer = .ok handle ∧ (env.drop 12).take 8 = leBytes handle

/-- The slot is left with a reply to the request. -/
def RepliesToExec (k : Kernel) (payload : List UInt8) (seq : UInt64) : Prop :=
  ∃ env, ((handleExec payload seq).runOn serve k).2.slot.Holds env ∧ ExecReply (k.sysExec payload).1 seq env

theorem wireEnvelope_seqField (four : typePrefix.length = 4) :
    ((wireEnvelope typePrefix seq payload).drop 4).take 8 = leBytes seq := by
  rw [wireEnvelope, List.append_assoc, List.append_assoc, ← four, List.drop_left, ← length_leBytes seq, List.take_left]

theorem length_execErrText (error : SyscallErr) : (execErrText error).length ≤ 500 := by
  cases error with
  | invalid | permissionDenied | hookwallBlock | exhausted | wouldBlock | unimplemented | cosignReject => decide

/-- A complaint sent into a free slot is a reply. -/
theorem complaint_replies (free : k.slot.state = .empty) (fits : payload.length ≤ 500) (seq : UInt64)
    (answer : Except SyscallErr UInt64) : ∃ env,
      ((emitEnvelope (utf8 "EERR") seq payload).runOn serve k).2.slot.Holds env ∧ ExecReply answer seq env := by
  have four : (utf8 "EERR").length = 4 := by decide
  have published := emitEnvelope_free free (utf8 "EERR") seq payload
  rw [frame_eq_wireEnvelope four fits] at published
  exact ⟨_, published, wireEnvelope_seqField four, .inl (wireEnvelope_take four)⟩

/-- What `sys_exec` refuses leaves the slot as it was. -/
theorem sysExec_refuses (refused : payload.length < minEnvelopeBytes ∨ envelopeSlotBytes < payload.length) :
    (k.sysExec payload).1 = .error .invalid ∧ (k.sysExec payload).2.slot = k.slot := by
  unfold Kernel.sysExec
  split
  · exact ⟨rfl, rfl⟩
  · next long =>
    have reached := dispatchEnqueueBytes_case k.slot payload 0
    generalize dispatchEnqueueBytes k.slot payload 0 = outcome at reached
    cases reached with
    | oversize => exact ⟨rfl, rfl⟩
    | occupied fits => omega
    | stored _ holds =>
      have := holds.fits
      omega

/-- The answer of `sys_exec` decides which reply is sent. -/
theorem handleExec_runOn (some : payload ≠ []) (k : Kernel) (seq : UInt64) : (handleExec payload seq).runOn serve k =
    Calls.runOn serve (match (k.sysExec payload).1 with
      | .ok handle => emitEnvelope (utf8 "EOKx") seq (leBytes handle)
      | .error error => emitEnvelope (utf8 "EERR") seq (execErrText error)) (k.sysExec payload).2 := by
  unfold handleExec
  rw [if_neg (by simpa using some), Calls.runOn_bind]
  rfl

/-- A refused request is answered with a complaint. -/
theorem replies_of_refused (free : k.slot.state = .empty) (seq : UInt64)
    (refused : payload.length < minEnvelopeBytes ∨ envelopeSlotBytes < payload.length) : RepliesToExec k payload seq := by
  unfold RepliesToExec
  by_cases empty : payload = []
  · subst empty
    exact complaint_replies free (by decide) seq _
  · obtain ⟨answered, slot⟩ := sysExec_refuses (k := k) refused
    rw [handleExec_runOn empty, answered]
    exact complaint_replies (by rw [slot, free]) (length_execErrText .invalid) seq _

theorem emitEnvelope_full {env : List UInt8} (holds : k.slot.Holds env) (typePrefix : List UInt8) (seq : UInt64)
    (payload : List UInt8) : ((emitEnvelope typePrefix seq payload).runOn serve k).2.slot.Holds env :=
  sysEnvelopeSend_full holds _ routeHintLocal

/-- An accepted request stays in the slot, and its reply finds no room. -/
theorem handleExec_accepted (free : k.slot.state = .empty) (seq : UInt64) (long : minEnvelopeBytes ≤ payload.length)
    (fits : payload.length ≤ envelopeSlotBytes) : ((handleExec payload seq).runOn serve k).2.slot.Holds payload := by
  obtain ⟨answered, holds⟩ := Kernel.sysExec_accepts long fits free
  have some : payload ≠ [] := List.ne_nil_of_length_pos (Nat.lt_of_lt_of_le (by decide) long)
  rw [handleExec_runOn some, answered]
  exact emitEnvelope_full holds _ seq _

/-- An `EXEC` request is answered exactly when `sys_exec` refuses it, unless the
request that stays in the slot itself reads like the answer. -/
theorem replies_to_exec_iff (free : k.slot.state = .empty) (payload : List UInt8) (seq : UInt64) :
    RepliesToExec k payload seq ↔ payload.length < minEnvelopeBytes ∨ envelopeSlotBytes < payload.length ∨
      ExecReply (.ok k.execHandleNext) seq payload := by
  by_cases refused : payload.length < minEnvelopeBytes ∨ envelopeSlotBytes < payload.length
  · exact iff_of_true (replies_of_refused free seq refused) (by tauto)
  · have long : minEnvelopeBytes ≤ payload.length := by omega
    have fits : payload.length ≤ envelopeSlotBytes := by omega
    have holds := handleExec_accepted free seq long fits
    rw [← or_assoc, or_iff_right refused, RepliesToExec, (Kernel.sysExec_accepts long fits free).1]
    refine ⟨?_, fun reads => ⟨payload, holds, reads⟩⟩
    intro replied
    obtain ⟨env, held, reads⟩ := replied
    rwa [holds.unique held]

theorem short_exec_replied : Kernel.initial.slot.state = .empty ∧ RepliesToExec Kernel.initial (utf8 "ls") 7 :=
  ⟨rfl, (replies_to_exec_iff rfl (utf8 "ls") 7).mpr (.inl (by decide))⟩

theorem accepted_exec_unanswered : Kernel.initial.slot.state = .empty ∧
    (Kernel.initial.sysExec (List.replicate 32 0)).1 = .ok 1 ∧ ¬ RepliesToExec Kernel.initial (List.replicate 32 0) 7 := by
  have length : (List.replicate 32 (0 : UInt8)).length = 32 := List.length_replicate
  have long : minEnvelopeBytes ≤ (List.replicate 32 (0 : UInt8)).length := Nat.le_of_eq length.symm
  have fits : (List.replicate 32 (0 : UInt8)).length ≤ envelopeSlotBytes := by
    rw [length, envelopeSlotBytes]
    omega
  have free : Kernel.initial.slot.state = .empty := rfl
  refine ⟨free, (Kernel.sysExec_accepts long fits free).1, ?_⟩
  intro replied
  obtain ⟨env, held, reads⟩ := replied
  obtain rfl := (handleExec_accepted free 7 long fits).unique held
  exact absurd reads.seqField (by decide)

end Asolaria.Init
