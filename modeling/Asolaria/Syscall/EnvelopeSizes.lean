import Asolaria.Syscall.KernelRun

namespace Asolaria.Syscall
open Library Envelope Vfs

/-- Whatever envelope is resident has the size the syscall layer promises. -/
def FullSized (slot : Slot) : Prop :=
  ∀ env, slot.Holds env → minEnvelopeBytes ≤ env.length ∧ env.length ≤ envelopeSlotBytes

/-- A `sys_write` of one to 31 bytes to a bus descriptor finds the slot free. -/
def ShortWrite (k : Kernel) (label : KernelLabel) : Prop :=
  ∃ fd buf reply, label = .write fd buf reply ∧ k.fds.OnBus fd ∧ k.slot.state = .empty ∧ buf ≠ [] ∧
    buf.length < minEnvelopeBytes

variable {history : KernelHistory} {k after : Kernel} {label : KernelLabel}

theorem FullSized.initial : FullSized Kernel.initial.slot := by
  intro env holds
  cases holds.state

/-- Every way into the slot but a short write keeps the resident size. -/
theorem FullSized.step (sized : FullSized k.slot) (effect : KernelCase k label after) (long : ¬ ShortWrite k label) :
    FullSized after.slot := by
  intro env holds
  cases effect with
  | aside slot =>
    rw [slot] at holds
    exact sized env holds
  | sent other free stored _ _ _ _ origin =>
    obtain rfl := holds.unique stored
    refine ⟨?_, holds.fits⟩
    rcases origin with least | ⟨fd, reply, rfl, bound, present⟩
    · exact least
    · by_contra short
      exact long ⟨fd, env, reply, rfl, bound, free, present, by omega⟩
  | received _ _ _ vacant => cases vacant.state.symm.trans holds.state

theorem KernelRun.fullSized (run : KernelRun history k)
    (long : ∀ transition ∈ history, ¬ ShortWrite transition.before transition.label) : FullSized k.slot := by
  induction run with
  | start => exact FullSized.initial
  | @next history k label after previous step ih =>
    obtain ⟨_, record⟩ := KernelRun.record previous
    have before : FullSized k.slot := ih fun transition member => long transition (List.mem_append_left _ member)
    exact before.step (step.case record.settled) (long ⟨k, label, after⟩ (List.mem_append_right _ (by simp)))

/-- A short write goes through: the bus descriptor repeats the upper bound
but not the lower one. -/
theorem ShortWrite.stored (short : ShortWrite k label) (step : KernelStep k label after) : ¬ FullSized after.slot := by
  obtain ⟨fd, buf, reply, rfl, bound, free, present, least⟩ := short
  have limits : minEnvelopeBytes ≤ envelopeSlotBytes := by decide
  cases step with
  | write =>
    have nonempty : buf.isEmpty = false := by simpa using present
    have fits : buf.length ≤ envelopeSlotBytes := by omega
    obtain ⟨after, stored, holds⟩ := dispatchEnqueueBytes_free free fits 0
    simp only [Kernel.sysWrite, nonempty, vfsWrite_onBus bound present, stored]
    intro sized
    have minimum := (sized buf holds).1
    omega

/-- In every state a run reaches, the resident envelope has between 32 and
1024 bytes, exactly when no call of the run is a short write to the bus. -/
theorem KernelRun.resident_sizes_iff (run : KernelRun history k) :
    (∀ before after reached, history = before ++ after → KernelRun before reached → FullSized reached.slot) ↔
      ∀ transition ∈ history, ¬ ShortWrite transition.before transition.label := by
  constructor
  · intro sized transition member short
    obtain ⟨before, after, recorded⟩ := List.append_of_mem member
    obtain ⟨earlier, step⟩ := run.split recorded
    exact short.stored step (sized (before ++ [transition]) after transition.after
      (by rw [recorded, List.append_assoc]; rfl) (.next earlier step))
  · intro long before after reached split earlier
    refine earlier.fullSized fun transition member => long transition ?_
    rw [split]
    exact List.mem_append_left after member

/-- One `sys_envelope_send` of the least size, after which every state was
of full size. -/
theorem resident_sizes_oneSend : ∃ history k, KernelRun history k ∧ k.slot.Holds (List.replicate 32 0) ∧
    FullSized k.slot := by
  have run : KernelRun _ _ := .next .start (KernelStep.envelopeSend (k := Kernel.initial) (List.replicate 32 0) 0)
  have holds := (Kernel.sysEnvelopeSend_shortest (k := Kernel.initial) rfl (List.length_replicate (a := (0 : UInt8))) 0).2
  refine ⟨_, _, run, holds, run.resident_sizes_iff.mpr ?_ _ [] _ (List.append_nil _).symm run⟩
  intro transition member short
  obtain ⟨fd, buf, reply, written, _⟩ := short
  rw [List.mem_singleton.mp member] at written
  cases written

/-- A one-byte `sys_write` to a descriptor opened on the bus leaves a one-byte
envelope resident. -/
theorem short_write_resident : ¬ ∀ history k, KernelRun history k → FullSized k.slot := by
  intro sized
  have opened : KernelRun _ _ := .next .start (KernelStep.vfsOpen (k := Kernel.initial) busEnvelopePath oRdwr)
  have written := Run.next opened (KernelStep.write 3 [7])
  have bound : (Kernel.initial.vfsOpen busEnvelopePath oRdwr).2.fds.OnBus 3 := by decide
  have short : ShortWrite (Kernel.initial.vfsOpen busEnvelopePath oRdwr).2
      (.write 3 [7] ((Kernel.initial.vfsOpen busEnvelopePath oRdwr).2.sysWrite 3 [7]).1) :=
    ⟨3, [7], _, rfl, bound, rfl, by decide, by decide⟩
  exact short.stored (.write 3 [7]) (sized _ _ written)

end Asolaria.Syscall
