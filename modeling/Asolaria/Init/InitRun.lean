import Asolaria.Init.Dispatch

namespace Asolaria.Init
open Library Envelope Syscall

/-- The process of init: at its next call, or gone. -/
inductive InitThread
  | running (program : InitProgram Turn)
  | exited (status : Int)

/-- The end of a round leads on to the next round. -/
def InitThread.resume : InitProgram Turn → InitThread
  | .done (.again state) => .running (loopTurn state)
  | .done (.exit status) => .exited status
  | .call request next => .running (.call request next)

structure InitSystem where
  kernel : Kernel
  thread : InitThread

def InitSystem.initial : InitSystem := ⟨Kernel.initial, .running boot⟩

/-- Who makes a call. -/
inductive Party (ι : Type)
  | init
  | other (i : ι)

/-- A call of init as the kernel records it. -/
def InitCall.label : (request : InitCall) → request.Reply → KernelLabel
  | .pidCurrent, _ => .stateless .pidCurrent
  | .hookwallPre env, _ => .stateless (.hookwallPre env)
  | .hookwallPost env verdict, reply => .hookwallPost env verdict reply
  | .envelopeSend env routeHint, reply => .envelopeSend env routeHint reply
  | .envelopeRecv buf maxWaitNs, reply => .envelopeRecv buf maxWaitNs reply.1 reply.2
  | .exec envelopeBytes, reply => .exec envelopeBytes reply
  | .cosignAppend row, reply => .cosignAppend row reply

/-- Init makes its next call, or another party makes any call at all. -/
inductive InitStep {ι : Type} : InitSystem → Party ι × KernelLabel → InitSystem → Prop
  | init {k request next} : InitStep ⟨k, .running (.call request next)⟩ (.init, request.label (serve k request).1)
      ⟨(serve k request).2, .resume (next (serve k request).1)⟩
  | other {k thread label after} (i : ι) : KernelStep k label after →
      InitStep ⟨k, thread⟩ (.other i, label) ⟨after, thread⟩

abbrev InitHistory (ι : Type) := List (Transition InitSystem (Party ι × KernelLabel))

/-- Any order of the calls of init and of the others, from the start of init on. -/
abbrev InitRun {ι : Type} (history : InitHistory ι) (s : InitSystem) : Prop :=
  Run InitStep InitSystem.initial history s

/-- The envelope that a call has put on the bus. -/
def posted? {ι : Type} (transition : Transition InitSystem (Party ι × KernelLabel)) : Option (List UInt8) :=
  transition.label.2.sent? transition.before.kernel

/-- What a call has taken off the bus. -/
def receipt? {ι : Type} (transition : Transition InitSystem (Party ι × KernelLabel)) :
    Option (List UInt8 × Nat × List UInt8) :=
  transition.label.2.receipt? transition.before.kernel

variable {ι : Type} {history : InitHistory ι} {s : InitSystem} {k : Kernel} {pending : Option (List UInt8)}

theorem serve_step (k : Kernel) (request : InitCall) :
    KernelStep k (request.label (serve k request).1) (serve k request).2 := by
  cases request with
  | pidCurrent => exact .stateless .pidCurrent
  | hookwallPre env => exact .stateless (.hookwallPre env)
  | hookwallPost env verdict => exact .hookwallPost env verdict
  | envelopeSend env routeHint => exact .envelopeSend env routeHint
  | envelopeRecv buf maxWaitNs => exact .envelopeRecv buf maxWaitNs
  | exec envelopeBytes => exact .exec envelopeBytes
  | cosignAppend row => exact .cosignAppend row

theorem InitStep.kernelStep {label : Party ι × KernelLabel} {after : InitSystem} (step : InitStep s label after) :
    KernelStep s.kernel label.2 after.kernel := by
  cases step with
  | init => exact serve_step _ _
  | other _ step => exact step

/-- The calls as the kernel sees them. -/
def kernelHistory (history : InitHistory ι) : KernelHistory :=
  history.map fun transition => ⟨transition.before.kernel, transition.label.2, transition.after.kernel⟩

/-- Whatever init and the others do is a run of the kernel. -/
theorem InitRun.kernelRun (run : InitRun history s) : KernelRun (kernelHistory history) s.kernel := by
  induction run with
  | start => exact .start
  | next _ step ih =>
    rw [kernelHistory, List.map_append]
    exact .next ih step.kernelStep

theorem InitRun.settled (run : InitRun history s) : ∃ pending, s.kernel.slot.Settled pending := by
  obtain ⟨pending, record⟩ := run.kernelRun.record
  exact ⟨pending, record.settled⟩

theorem InitRun.case {label : Party ι × KernelLabel} {after : InitSystem} (run : InitRun history s)
    (step : InitStep s label after) : KernelCase s.kernel label.2 after.kernel := by
  obtain ⟨pending, settled⟩ := run.settled
  exact step.kernelStep.case settled

/-- Init lends a buffer of its fixed size, and publishes no more than that. -/
def InitCall.Sized : InitCall → Prop
  | .envelopeSend env _ => env.length ≤ initEnvelopeMax
  | .exec envelopeBytes => envelopeBytes.length ≤ initEnvelopeMax
  | .envelopeRecv buf _ => buf.length = initEnvelopeMax
  | _ => True

/-- A buffer keeps its size, and where no envelope is too long for it a
receive fails only by timing out. -/
def Relied (fits : Prop) : (request : InitCall) → request.Reply → Prop
  | .envelopeRecv buf _, reply =>
    reply.2.length = buf.length ∧ (fits → ∀ error, reply.1 = .error error → error = .wouldBlock)
  | _, _ => True

/-- Init goes on with a buffer of its fixed size, and exits for a wedged bus
only where an envelope was too long. -/
def Turn.Sized (fits : Prop) : Turn → Prop
  | .again state => state.recvBuf.length = initEnvelopeMax
  | .exit status => fits → status ≠ 2

variable {fits : Prop} {typePrefix fullEnv payload : List UInt8}

theorem emitEnvelope_sized (typePrefix : List UInt8) (seq : UInt64) (payload : List UInt8) :
    (emitEnvelope typePrefix seq payload).Upholds InitCall.Sized (Relied fits) fun _ => True := by
  refine ⟨?_, fun _ _ => trivial⟩
  have length := length_frame typePrefix seq payload
  simp only [InitCall.Sized, initEnvelopeMax]
  omega

theorem handleExec_sized (short : payload.length ≤ initEnvelopeMax) (seq : UInt64) :
    (handleExec payload seq).Upholds InitCall.Sized (Relied fits) fun _ => True := by
  unfold handleExec
  split
  · exact emitEnvelope_sized _ _ _
  · have asked : (sysExec payload).Upholds InitCall.Sized (Relied fits) fun _ => True := .invoke short fun _ _ => trivial
    refine asked.bind fun reply _ => ?_
    cases reply with
    | ok => exact emitEnvelope_sized _ _ _
    | error => exact emitEnvelope_sized _ _ _

theorem sysHookwallPost_sized (env : List UInt8) (verdict : HookwallVerdict) :
    (sysHookwallPost env verdict).Upholds InitCall.Sized (Relied fits) fun _ => True :=
  .invoke trivial fun _ _ => trivial

theorem replied_sized {program : InitProgram UInt64} (env : List UInt8) (verdict : HookwallVerdict)
    (sized : program.Upholds InitCall.Sized (Relied fits) fun _ => True) :
    Calls.Upholds InitCall.Sized (Relied fits) (fun ended => ended ≠ Dispatched.exited 2) do
      let seq ← program
      let _ ← sysHookwallPost env verdict
      return .returned seq :=
  sized.bind fun _ _ => (sysHookwallPost_sized env verdict).bind fun _ _ => nofun

/-- A dispatch never ends in the exit for a wedged bus. -/
theorem dispatchGated_sized (verdict : HookwallVerdict) (typePrefix : List UInt8)
    (short : fullEnv.length ≤ initEnvelopeMax) (seq : UInt64) :
    (dispatchGated verdict typePrefix fullEnv seq).Upholds InitCall.Sized (Relied fits) fun ended => ended ≠ .exited 2 := by
  cases verdict with
  | block => exact replied_sized _ .block (emitEnvelope_sized _ _ _)
  | hold => exact replied_sized _ .hold (emitEnvelope_sized _ _ _)
  | proceed =>
    simp only [dispatchGated]
    split
    · have graceful : Dispatched.exited 0 ≠ .exited 2 := by decide
      refine (emitEnvelope_sized _ _ _).bind fun _ _ => (sysHookwallPost_sized fullEnv .proceed).bind fun _ _ => ?_
      exact ⟨trivial, fun _ _ => graceful⟩
    · have shorter : (fullEnv.drop 12).length ≤ initEnvelopeMax := by
        rw [List.length_drop]
        omega
      repeat' split
      all_goals first
        | exact replied_sized _ .proceed (emitEnvelope_sized _ _ _)
        | exact replied_sized _ .proceed (handleExec_sized shorter _)

theorem dispatchEnvelope_sized (typePrefix : List UInt8) (short : fullEnv.length ≤ initEnvelopeMax) (seq : UInt64) :
    (dispatchEnvelope typePrefix fullEnv seq).Upholds InitCall.Sized (Relied fits) fun ended => ended ≠ .exited 2 :=
  ⟨trivial, fun _ _ => dispatchGated_sized _ typePrefix short seq⟩

theorem loopTurn_sized {state : LoopState} (lent : state.recvBuf.length = initEnvelopeMax) :
    (loopTurn state).Upholds InitCall.Sized (Relied fits) (Turn.Sized fits) := by
  have asked : (sysEnvelopeRecv state.recvBuf recvWaitNs).Upholds InitCall.Sized (Relied fits)
      (Relied fits (.envelopeRecv state.recvBuf recvWaitNs)) := .invoke lent fun _ relied => relied
  refine asked.bind fun reply relied => ?_
  obtain ⟨reply, recvBuf⟩ := reply
  obtain ⟨same, timely⟩ := relied
  have kept : recvBuf.length = initEnvelopeMax := same.trans lent
  dsimp only
  split
  · next n =>
    split
    · have short : (recvBuf.take n).length ≤ initEnvelopeMax := by
        rw [List.length_take, kept]
        omega
      refine (dispatchEnvelope_sized _ short _).bind fun ended other => ?_
      cases ended with
      | returned seq => exact kept
      | exited status =>
        intro _ wedged
        exact other (congrArg Dispatched.exited wedged)
    · exact kept
  · exact kept
  · next error counted =>
    split
    · refine (emitEnvelope_sized _ _ _).bind fun _ _ => ?_
      intro clear _
      exact counted (timely clear error rfl)
    · exact kept

theorem length_initReadyEnvelope (pid : UInt64) : (initReadyEnvelope pid).length = 32 := by
  simp only [initReadyEnvelope, List.length_append, length_leBytes, List.length_replicate]
  decide

theorem boot_sized : boot.Upholds InitCall.Sized (Relied fits) (Turn.Sized fits) := by
  refine ⟨trivial, fun pid _ => ⟨trivial, fun _ _ => ⟨?_, fun _ _ => ⟨trivial, fun _ _ => ?_⟩⟩⟩⟩
  · rw [InitCall.Sized, length_initReadyEnvelope]
    decide
  · exact List.length_replicate

/-- The process keeps to its sizes from here on. -/
def InitThread.Sized (fits : Prop) : InitThread → Prop
  | .running program => program.Upholds InitCall.Sized (Relied fits) (Turn.Sized fits)
  | .exited status => fits → status ≠ 2

theorem InitThread.sized_resume {program : InitProgram Turn}
    (sized : program.Upholds InitCall.Sized (Relied fits) (Turn.Sized fits)) : (resume program).Sized fits := by
  match program with
  | .done (.again state) => exact loopTurn_sized sized
  | .done (.exit status) => exact sized
  | .call request next => exact sized

theorem sysEnvelopeRecv_relied (settled : k.slot.Settled pending) {buf : List UInt8} (lent : buf ≠ []) (maxWaitNs : UInt64)
    (clear : fits → ∀ env, k.slot.Holds env → env.length ≤ buf.length) :
    Relied fits (.envelopeRecv buf maxWaitNs) (serve k (.envelopeRecv buf maxWaitNs)).1 := by
  simp only [serve, Kernel.sysEnvelopeRecv, if_neg (show ¬ buf.isEmpty = true by simpa using lent)]
  have reached := dispatchDequeueBytes_case settled buf maxWaitNs
  generalize dispatchDequeueBytes k.slot buf maxWaitNs = outcome at reached
  cases reached with
  | nothing => exact ⟨rfl, fun _ error same => by cases same; rfl⟩
  | @short env holds large =>
    refine ⟨rfl, fun shorter => ?_⟩
    have := clear shorter env holds
    omega
  | @taken env after holds room =>
    refine ⟨?_, fun _ error same => by cases same⟩
    simp only [List.length_append, List.length_drop]
    omega

theorem ne_nil_of_length_eq_max {buf : List UInt8} (length : buf.length = initEnvelopeMax) : buf ≠ [] := by
  apply List.ne_nil_of_length_pos
  rw [length, initEnvelopeMax]
  omega

theorem serve_relied {request : InitCall} (settled : k.slot.Settled pending) (sized : request.Sized)
    (clear : fits → ∀ env, k.slot.Holds env → env.length ≤ initEnvelopeMax) : Relied fits request (serve k request).1 := by
  cases request with
  | envelopeRecv buf maxWaitNs =>
    have length : buf.length = initEnvelopeMax := sized
    exact sysEnvelopeRecv_relied settled (ne_nil_of_length_eq_max length) maxWaitNs (length ▸ clear)
  | _ => trivial

variable {label : Party ι × KernelLabel} {after : InitSystem}

theorem InitStep.sized (step : InitStep s label after) (settled : s.kernel.slot.Settled pending)
    (sized : s.thread.Sized fits) (clear : fits → ∀ env, s.kernel.slot.Holds env → env.length ≤ initEnvelopeMax) :
    after.thread.Sized fits := by
  cases step with
  | init =>
    obtain ⟨allowed, further⟩ := sized
    exact InitThread.sized_resume (further _ (serve_relied settled allowed clear))
  | other => exact sized

/-- Init keeps to its sizes in every run, and where no envelope on the bus
was too long for its buffer it has not given up. -/
theorem InitRun.sized (run : InitRun history s)
    (clear : fits → ∀ transition ∈ history, ∀ env, transition.before.kernel.slot.Holds env → env.length ≤ initEnvelopeMax) :
    s.thread.Sized fits := by
  induction run with
  | start => exact boot_sized
  | @next history current label after previous step ih =>
    obtain ⟨pending, settled⟩ := InitRun.settled previous
    refine step.sized settled (ih fun shorter transition member => ?_) fun shorter => ?_
    · exact clear shorter transition (List.mem_append_left _ member)
    · exact clear shorter ⟨current, label, after⟩ (List.mem_append_right _ (List.mem_singleton.mpr rfl))

theorem InitCall.length_of_sent {request : InitCall} {reply : request.Reply} {env : List UInt8} (sized : request.Sized)
    (sent : (request.label reply).sent? k = some env) : env.length ≤ initEnvelopeMax := by
  cases request with
  | envelopeSend _ _ | exec _ =>
    cases reply with
    | error => cases sent
    | ok =>
      cases sent
      exact sized
  | _ => cases sent

/-- What init publishes fits into its own buffer. -/
theorem InitRun.length_of_posted {env : List UInt8} {label : KernelLabel} (run : InitRun history s)
    (step : InitStep s ((.init : Party ι), label) after) (sent : label.sent? s.kernel = some env) :
    env.length ≤ initEnvelopeMax := by
  have sized : s.thread.Sized False := run.sized False.elim
  cases step with
  | init => exact InitCall.length_of_sent sized.1 sent

/-- The buffer of a receive of init has the fixed size, and the kernel answers it. -/
theorem InitRun.lent_of_recv {given buf : List UInt8} {maxWaitNs : UInt64} {reply : Except SyscallErr Nat}
    (run : InitRun history s) (step : InitStep s ((.init : Party ι), .envelopeRecv given maxWaitNs reply buf) after) :
    given.length = initEnvelopeMax ∧ reply = (s.kernel.sysEnvelopeRecv given maxWaitNs).1 := by
  have sized : s.thread.Sized False := run.sized False.elim
  generalize same : ((.init : Party ι), KernelLabel.envelopeRecv given maxWaitNs reply buf) = label at step
  cases step with
  | other => cases same
  | @init k request next =>
    cases request with
    | envelopeRecv lent wait =>
      cases same
      exact ⟨sized.1, rfl⟩
    | _ => cases same

end Asolaria.Init
