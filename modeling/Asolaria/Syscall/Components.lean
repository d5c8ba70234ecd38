import Asolaria.Library.Parts
import Asolaria.Syscall.KernelRun

namespace Asolaria.Syscall
open Library Envelope Vfs

/-- A call without its reply. -/
inductive KernelCall
  | read (fd : UInt64) (given : List UInt8) (len : Nat)
  | write (fd : UInt64) (buf : List UInt8)
  | exec (envelopeBytes : List UInt8)
  | fork
  | mmap (len : UInt64) (prot : UInt32)
  | munmap (addr len : UInt64)
  | time
  | envelopeSend (env : List UInt8) (routeHint : UInt32)
  | envelopeRecv (given : List UInt8) (maxWaitNs : UInt64)
  | hookwallPost (env : List UInt8) (verdict : HookwallVerdict)
  | cosignAppend (row : List UInt8)
  | stateless (call : StatelessCall)
  | vfsOpen (path : List UInt8) (mode : UInt32)
  | vfsClose (fd : UInt64)

def KernelLabel.call : KernelLabel → KernelCall
  | .read fd given len _ _ => .read fd given len
  | .write fd buf _ => .write fd buf
  | .exec envelopeBytes _ => .exec envelopeBytes
  | .fork _ => .fork
  | .mmap len prot _ => .mmap len prot
  | .munmap addr len _ => .munmap addr len
  | .time _ => .time
  | .envelopeSend env routeHint _ => .envelopeSend env routeHint
  | .envelopeRecv given maxWaitNs _ _ => .envelopeRecv given maxWaitNs
  | .hookwallPost env verdict _ => .hookwallPost env verdict
  | .cosignAppend row _ => .cosignAppend row
  | .stateless call => .stateless call
  | .vfsOpen path mode _ => .vfsOpen path mode
  | .vfsClose fd _ => .vfsClose fd

/-- The groups of syscalls that share statics. The table of descriptors is a
component of its own and a part of the bus. -/
inductive Component
  | bus
  | descriptors
  | agents
  | frames
  | clock
  | chain
  deriving DecidableEq, Repr

def Component.owns : Component → KernelLabel → Bool
  | .bus, .read .. | .bus, .write .. | .bus, .exec .. | .bus, .envelopeSend .. | .bus, .envelopeRecv .. => true
  | .bus, .vfsOpen .. | .bus, .vfsClose .. | .descriptors, .vfsOpen .. | .descriptors, .vfsClose .. => true
  | .agents, .fork .. | .frames, .mmap .. | .frames, .munmap .. | .clock, .time .. => true
  | .chain, .hookwallPost .. | .chain, .cosignAppend .. => true
  | _, _ => false

/-- The statics of a component, with all others as they were at the start. -/
def Component.view : Component → Kernel → Kernel
  | .bus, k => { Kernel.initial with slot := k.slot, fds := k.fds, execHandleNext := k.execHandleNext }
  | .descriptors, k => { Kernel.initial with fds := k.fds }
  | .agents, k => { Kernel.initial with spawnChildCounter := k.spawnChildCounter }
  | .frames, k => { Kernel.initial with nextVirtualBase := k.nextVirtualBase }
  | .clock, k => { Kernel.initial with monotonicCounter := k.monotonicCounter }
  | .chain, k => { Kernel.initial with appendSeqCounter := k.appendSeqCounter }

theorem kernelStep_deterministic : Deterministic KernelStep KernelLabel.call := by
  intro k label t label' t' step step' same
  cases step <;> cases step' <;> cases same <;> exact ⟨rfl, rfl⟩

section Views
variable (k : Kernel)

theorem bus_read (fd : UInt64) (buf : List UInt8) (len : Nat) : (Component.bus.view k).sysRead fd buf len =
    ((k.sysRead fd buf len).1, (k.sysRead fd buf len).2.1, Component.bus.view (k.sysRead fd buf len).2.2) := by
  unfold Kernel.sysRead
  split <;> rfl

theorem bus_write (fd : UInt64) (buf : List UInt8) :
    (Component.bus.view k).sysWrite fd buf = ((k.sysWrite fd buf).1, Component.bus.view (k.sysWrite fd buf).2) := by
  unfold Kernel.sysWrite
  split <;> rfl

theorem bus_exec (envelopeBytes : List UInt8) : (Component.bus.view k).sysExec envelopeBytes =
    ((k.sysExec envelopeBytes).1, Component.bus.view (k.sysExec envelopeBytes).2) := by
  have slot : (Component.bus.view k).slot = k.slot := rfl
  unfold Kernel.sysExec
  rw [slot]
  split
  · rfl
  · rcases dispatchEnqueueBytes k.slot envelopeBytes 0 with ⟨_ | _, after⟩ <;> rfl

theorem bus_envelopeSend (env : List UInt8) (routeHint : UInt32) : (Component.bus.view k).sysEnvelopeSend env routeHint =
    ((k.sysEnvelopeSend env routeHint).1, Component.bus.view (k.sysEnvelopeSend env routeHint).2) := by
  unfold Kernel.sysEnvelopeSend
  split <;> rfl

theorem bus_envelopeRecv (buf : List UInt8) (maxWaitNs : UInt64) : (Component.bus.view k).sysEnvelopeRecv buf maxWaitNs =
    ((k.sysEnvelopeRecv buf maxWaitNs).1, (k.sysEnvelopeRecv buf maxWaitNs).2.1,
      Component.bus.view (k.sysEnvelopeRecv buf maxWaitNs).2.2) := by
  unfold Kernel.sysEnvelopeRecv
  split <;> rfl

theorem agents_fork : (Component.agents.view k).sysFork = (k.sysFork.1, Component.agents.view k.sysFork.2) := by
  have children : (Component.agents.view k).spawnChildCounter = k.spawnChildCounter := rfl
  unfold Kernel.sysFork
  rw [children]
  rcases spawnChildAgent k.spawnChildCounter with ⟨error | child, counter⟩
  · cases error <;> rfl
  · rfl

theorem frames_mmap (len : UInt64) (prot : UInt32) : (Component.frames.view k).sysMmap len prot =
    ((k.sysMmap len prot).1, Component.frames.view (k.sysMmap len prot).2) := by
  have base : (Component.frames.view k).nextVirtualBase = k.nextVirtualBase := rfl
  unfold Kernel.sysMmap
  rw [base]
  split
  · rfl
  · split
    · rfl
    · rcases allocPages k.nextVirtualBase len with ⟨error | address, next⟩
      · cases error <;> rfl
      · rfl

theorem chain_hookwallPost (env : List UInt8) (verdict : HookwallVerdict) :
    (Component.chain.view k).sysHookwallPost env verdict =
      ((k.sysHookwallPost env verdict).1, Component.chain.view (k.sysHookwallPost env verdict).2) := by
  unfold Kernel.sysHookwallPost
  split <;> rfl

theorem chain_cosignAppend (row : List UInt8) : (Component.chain.view k).sysCosignAppend row =
    ((k.sysCosignAppend row).1, Component.chain.view (k.sysCosignAppend row).2) := by
  unfold Kernel.sysCosignAppend
  split <;> rfl

end Views

section Frames
variable (k : Kernel)

theorem sysRead_frame (fd : UInt64) (buf : List UInt8) (len : Nat) : ∃ slot, (k.sysRead fd buf len).2.2 = { k with slot } := by
  unfold Kernel.sysRead
  split
  · exact ⟨k.slot, rfl⟩
  · exact ⟨_, rfl⟩

theorem sysWrite_frame (fd : UInt64) (buf : List UInt8) : ∃ slot, (k.sysWrite fd buf).2 = { k with slot } := by
  unfold Kernel.sysWrite
  split
  · exact ⟨k.slot, rfl⟩
  · exact ⟨_, rfl⟩

theorem sysExec_frame (envelopeBytes : List UInt8) :
    ∃ slot execHandleNext, (k.sysExec envelopeBytes).2 = { k with slot, execHandleNext } := by
  unfold Kernel.sysExec
  split
  · exact ⟨k.slot, k.execHandleNext, rfl⟩
  · split
    · exact ⟨_, _, rfl⟩
    · exact ⟨_, k.execHandleNext, rfl⟩

theorem sysFork_frame : ∃ spawnChildCounter, k.sysFork.2 = { k with spawnChildCounter } := by
  unfold Kernel.sysFork
  split <;> exact ⟨_, rfl⟩

theorem sysMmap_frame (len : UInt64) (prot : UInt32) : ∃ nextVirtualBase, (k.sysMmap len prot).2 = { k with nextVirtualBase } := by
  unfold Kernel.sysMmap
  split
  · exact ⟨k.nextVirtualBase, rfl⟩
  · split
    · exact ⟨k.nextVirtualBase, rfl⟩
    · split <;> exact ⟨_, rfl⟩

theorem sysEnvelopeSend_frame (env : List UInt8) (routeHint : UInt32) :
    ∃ slot, (k.sysEnvelopeSend env routeHint).2 = { k with slot } := by
  unfold Kernel.sysEnvelopeSend
  split
  · exact ⟨k.slot, rfl⟩
  · exact ⟨_, rfl⟩

theorem sysEnvelopeRecv_frame (buf : List UInt8) (maxWaitNs : UInt64) :
    ∃ slot, (k.sysEnvelopeRecv buf maxWaitNs).2.2 = { k with slot } := by
  unfold Kernel.sysEnvelopeRecv
  split
  · exact ⟨k.slot, rfl⟩
  · exact ⟨_, rfl⟩

theorem sysHookwallPost_frame (env : List UInt8) (verdict : HookwallVerdict) :
    ∃ appendSeqCounter, (k.sysHookwallPost env verdict).2 = { k with appendSeqCounter } := by
  unfold Kernel.sysHookwallPost
  split
  · exact ⟨_, rfl⟩
  · exact ⟨k.appendSeqCounter, rfl⟩

theorem sysCosignAppend_frame (row : List UInt8) :
    ∃ appendSeqCounter, (k.sysCosignAppend row).2 = { k with appendSeqCounter } := by
  unfold Kernel.sysCosignAppend
  split
  · exact ⟨k.appendSeqCounter, rfl⟩
  · exact ⟨_, rfl⟩

end Frames

variable {k after : Kernel} {label : KernelLabel} {component : Component}

/-- A component acts on its own statics, and sees no others. -/
theorem component_acts (step : KernelStep k label after) (mine : component.owns label = true) :
    KernelStep (component.view k) label (component.view after) := by
  cases step with
  | read fd buf len =>
    cases component <;> cases mine
    have own := KernelStep.read (k := Component.bus.view k) fd buf len
    rwa [bus_read] at own
  | write fd buf =>
    cases component <;> cases mine
    have own := KernelStep.write (k := Component.bus.view k) fd buf
    rwa [bus_write] at own
  | exec envelopeBytes =>
    cases component <;> cases mine
    have own := KernelStep.exec (k := Component.bus.view k) envelopeBytes
    rwa [bus_exec] at own
  | fork =>
    cases component <;> cases mine
    have own := KernelStep.fork (k := Component.agents.view k)
    rwa [agents_fork] at own
  | mmap len prot =>
    cases component <;> cases mine
    have own := KernelStep.mmap (k := Component.frames.view k) len prot
    rwa [frames_mmap] at own
  | munmap addr len =>
    cases component <;> cases mine
    exact .munmap addr len
  | time =>
    cases component <;> cases mine
    exact .time
  | envelopeSend env routeHint =>
    cases component <;> cases mine
    have own := KernelStep.envelopeSend (k := Component.bus.view k) env routeHint
    rwa [bus_envelopeSend] at own
  | envelopeRecv buf maxWaitNs =>
    cases component <;> cases mine
    have own := KernelStep.envelopeRecv (k := Component.bus.view k) buf maxWaitNs
    rwa [bus_envelopeRecv] at own
  | hookwallPost env verdict =>
    cases component <;> cases mine
    have own := KernelStep.hookwallPost (k := Component.chain.view k) env verdict
    rwa [chain_hookwallPost] at own
  | cosignAppend row =>
    cases component <;> cases mine
    have own := KernelStep.cosignAppend (k := Component.chain.view k) row
    rwa [chain_cosignAppend] at own
  | stateless call => cases component <;> cases mine
  | vfsOpen path mode => cases component <;> cases mine <;> exact .vfsOpen path mode
  | vfsClose fd => cases component <;> cases mine <;> exact .vfsClose fd

/-- The statics of a component are left alone by all calls but its own. -/
theorem component_rests (step : KernelStep k label after) (other : component.owns label = false) :
    component.view after = component.view k := by
  cases step with
  | read fd buf len =>
    obtain ⟨slot, frame⟩ := sysRead_frame k fd buf len
    rw [frame]
    cases component <;> first | rfl | cases other
  | write fd buf =>
    obtain ⟨slot, frame⟩ := sysWrite_frame k fd buf
    rw [frame]
    cases component <;> first | rfl | cases other
  | exec envelopeBytes =>
    obtain ⟨slot, execHandleNext, frame⟩ := sysExec_frame k envelopeBytes
    rw [frame]
    cases component <;> first | rfl | cases other
  | fork =>
    obtain ⟨counter, frame⟩ := sysFork_frame k
    rw [frame]
    cases component <;> first | rfl | cases other
  | mmap len prot =>
    obtain ⟨next, frame⟩ := sysMmap_frame k len prot
    rw [frame]
    cases component <;> first | rfl | cases other
  | envelopeSend env routeHint =>
    obtain ⟨slot, frame⟩ := sysEnvelopeSend_frame k env routeHint
    rw [frame]
    cases component <;> first | rfl | cases other
  | envelopeRecv buf maxWaitNs =>
    obtain ⟨slot, frame⟩ := sysEnvelopeRecv_frame k buf maxWaitNs
    rw [frame]
    cases component <;> first | rfl | cases other
  | hookwallPost env verdict =>
    obtain ⟨counter, frame⟩ := sysHookwallPost_frame k env verdict
    rw [frame]
    cases component <;> first | rfl | cases other
  | cosignAppend row =>
    obtain ⟨counter, frame⟩ := sysCosignAppend_frame k row
    rw [frame]
    cases component <;> first | rfl | cases other
  | munmap | stateless => rfl
  | time | vfsOpen | vfsClose => cases component <;> first | rfl | cases other

/-- A component as a part of the kernel. -/
def Component.part (component : Component) : Part KernelStep where
  view := component.view
  own := component.owns
  acts := component_acts
  rests := component_rests

/-- What a component was asked in a run, without the replies. -/
def asked (component : Component) (history : KernelHistory) : List KernelCall :=
  ((labels history).filter component.owns).map KernelLabel.call

/-- What a component was asked, with the replies. -/
def answered (component : Component) (history : KernelHistory) : List KernelLabel := (labels history).filter component.owns

/-- No component can tell from its replies what the others are asked. -/
theorem components_apart {history history' : KernelHistory} {k k' : Kernel} (run : KernelRun history k)
    (run' : KernelRun history' k') (same : asked component history = asked component history') :
    answered component history = answered component history' ∧ component.view k = component.view k' :=
  component.part.noninterference kernelStep_deterministic run run' same

/-- The clock by itself, and with a fork in front of it. -/
def clockAlone : KernelHistory := [⟨.initial, .time (.ok 0), Kernel.initial.sysTime.2⟩]

def clockBehindFork : KernelHistory :=
  [⟨.initial, .fork Kernel.initial.sysFork.1, Kernel.initial.sysFork.2⟩,
    ⟨Kernel.initial.sysFork.2, .time Kernel.initial.sysFork.2.sysTime.1, Kernel.initial.sysFork.2.sysTime.2⟩]

theorem components_apart_clock : answered .clock clockBehindFork = [.time (.ok 0)] := by
  have begun : KernelRun [] Kernel.initial := .start
  have alone : KernelRun clockAlone _ := begun.next .time
  have forked := begun.next .fork
  have behind : KernelRun clockBehindFork _ := forked.next .time
  exact (components_apart behind alone rfl).1

end Asolaria.Syscall
