import Asolaria.Library.Calls
import Asolaria.Library.Text
import Asolaria.Syscall.Kernel

namespace Asolaria.Init
open Library Envelope Syscall

/-- The most bytes that init receives or sends at once. -/
def initEnvelopeMax : Nat := 512

def recvFailureThreshold : UInt32 := 32

def recvWaitNs : UInt64 := 1000000000

def routeHintLocal : UInt32 := 0

/-- The syscalls init makes. `sys_exit` is the end of a turn. -/
inductive InitCall
  | pidCurrent
  | hookwallPre (env : List UInt8)
  | hookwallPost (env : List UInt8) (verdict : HookwallVerdict)
  | envelopeSend (env : List UInt8) (routeHint : UInt32)
  | envelopeRecv (buf : List UInt8) (maxWaitNs : UInt64)
  | exec (envelopeBytes : List UInt8)
  | cosignAppend (row : List UInt8)

/-- What each call returns; a receive also gives the buffer back. -/
def InitCall.Reply : InitCall → Type
  | pidCurrent => Except SyscallErr UInt64
  | hookwallPre _ => Except SyscallErr HookwallVerdict
  | hookwallPost _ _ => Except SyscallErr Unit
  | envelopeSend _ _ => Except SyscallErr Unit
  | envelopeRecv _ _ => Except SyscallErr Nat × List UInt8
  | exec _ => Except SyscallErr UInt64
  | cosignAppend _ => Except SyscallErr UInt64

abbrev InitProgram (α : Type) := Calls InitCall InitCall.Reply α

/-- The kernel's side of a call. -/
def serve (k : Kernel) : (request : InitCall) → request.Reply × Kernel
  | .pidCurrent => (Kernel.sysPidCurrent, k)
  | .hookwallPre env => (Kernel.sysHookwallPre env, k)
  | .hookwallPost env verdict => k.sysHookwallPost env verdict
  | .envelopeSend env routeHint => k.sysEnvelopeSend env routeHint
  | .envelopeRecv buf maxWaitNs =>
    let (reply, after, k) := k.sysEnvelopeRecv buf maxWaitNs
    ((reply, after), k)
  | .exec envelopeBytes => k.sysExec envelopeBytes
  | .cosignAppend row => k.sysCosignAppend row

def sysPidCurrent : InitProgram (Except SyscallErr UInt64) := Calls.invoke InitCall.pidCurrent

def sysHookwallPre (env : List UInt8) : InitProgram (Except SyscallErr HookwallVerdict) :=
  Calls.invoke (InitCall.hookwallPre env)

def sysHookwallPost (env : List UInt8) (verdict : HookwallVerdict) : InitProgram (Except SyscallErr Unit) :=
  Calls.invoke (InitCall.hookwallPost env verdict)

def sysEnvelopeSend (env : List UInt8) (routeHint : UInt32) : InitProgram (Except SyscallErr Unit) :=
  Calls.invoke (InitCall.envelopeSend env routeHint)

def sysEnvelopeRecv (buf : List UInt8) (maxWaitNs : UInt64) : InitProgram (Except SyscallErr Nat × List UInt8) :=
  Calls.invoke (InitCall.envelopeRecv buf maxWaitNs)

def sysExec (envelopeBytes : List UInt8) : InitProgram (Except SyscallErr UInt64) := Calls.invoke (InitCall.exec envelopeBytes)

def sysCosignAppend (row : List UInt8) : InitProgram (Except SyscallErr UInt64) := Calls.invoke (InitCall.cosignAppend row)

def leBytes (n : UInt64) : List UInt8 := (beBytes 8 n.toNat).reverse

/-- The bytes that `emit_envelope` sends: prefix, sequence number and payload
at the front of a zeroed buffer, of which at least the shortest envelope is
sent. -/
def frame (typePrefix : List UInt8) (seq : UInt64) (payload : List UInt8) : List UInt8 :=
  let n := min payload.length (initEnvelopeMax - 12)
  let written := typePrefix ++ leBytes seq ++ payload.take n
  let buf := written ++ List.replicate (initEnvelopeMax - written.length) 0
  let sendLen := max (12 + n) minEnvelopeBytes
  buf.take sendLen

/-- `emit_envelope` ignores what became of the envelope, and returns the next
sequence number. -/
def emitEnvelope (typePrefix : List UInt8) (seq : UInt64) (payload : List UInt8) : InitProgram UInt64 := do
  let _ ← sysEnvelopeSend (frame typePrefix seq payload) routeHintLocal
  return seq + 1

def initReadyEnvelope (pid : UInt64) : List UInt8 :=
  utf8 "INIT" ++ leBytes 0 ++ leBytes pid ++ List.replicate 12 0

def emitInitReady (pid : UInt64) : InitProgram Unit := do
  let buf := initReadyEnvelope pid
  let _ ← sysHookwallPre buf
  let _ ← sysEnvelopeSend buf routeHintLocal
  let _ ← sysHookwallPost buf .proceed
  return ()

/-- The text of an `EERR` reply. `SyscallErr` has no variant for the arm
`other-err` of the source. -/
def execErrText : SyscallErr → List UInt8
  | .invalid => utf8 "invalid"
  | .permissionDenied => utf8 "perm-denied"
  | .hookwallBlock => utf8 "hookwall-block"
  | .exhausted => utf8 "exhausted"
  | .wouldBlock => utf8 "would-block"
  | .unimplemented => utf8 "unimplemented"
  | .cosignReject => utf8 "cosign-reject"

def handleExec (payload : List UInt8) (seq : UInt64) : InitProgram UInt64 :=
  if payload.isEmpty then emitEnvelope (utf8 "EERR") seq (utf8 "empty-exec")
  else do
    match ← sysExec payload with
    | .ok handle => emitEnvelope (utf8 "EOKx") seq (leBytes handle)
    | .error error => emitEnvelope (utf8 "EERR") seq (execErrText error)

/-- How a dispatch ends: with the next sequence number, or in `sys_exit`. -/
inductive Dispatched
  | returned (seq : UInt64)
  | exited (status : Int)
  deriving DecidableEq, Repr

/-- The verdict a dispatch goes by: an error of the hook blocks. -/
def verdictOf : Except SyscallErr HookwallVerdict → HookwallVerdict
  | .ok verdict => verdict
  | .error _ => .block

/-- The arms of `dispatch_envelope` behind its gate. `SHTD` is the one that
does not come back to the common end. -/
def dispatchGated (verdict : HookwallVerdict) (typePrefix fullEnv : List UInt8) (seq : UInt64) :
    InitProgram Dispatched :=
  match verdict with
  | .block => do
    let seq ← emitEnvelope (utf8 "BLOK") seq typePrefix
    let _ ← sysHookwallPost fullEnv .block
    return .returned seq
  | .hold => do
    let seq ← emitEnvelope (utf8 "HOLD") seq typePrefix
    let _ ← sysHookwallPost fullEnv .hold
    return .returned seq
  | .proceed =>
    if typePrefix = utf8 "SHTD" then do
      let _ ← emitEnvelope (utf8 "FINI") seq (utf8 "init-shutdown")
      let _ ← sysHookwallPost fullEnv .proceed
      let _ ← sysCosignAppend (utf8 "init-shutdown")
      return .exited 0
    else do
      let seq ←
        if typePrefix = utf8 "PING" then emitEnvelope (utf8 "PONG") seq []
        else if typePrefix = utf8 "EXEC" then
          if fullEnv.length < 12 then emitEnvelope (utf8 "EERR") seq (utf8 "short-exec")
          else handleExec (fullEnv.drop 12) seq
        else if typePrefix = utf8 "VERS" then emitEnvelope (utf8 "VERS") seq kernelVersion
        else if typePrefix = utf8 "PIDA" then emitEnvelope (utf8 "PIDA") seq federationAnchorPid
        else emitEnvelope (utf8 "UNKN") seq typePrefix
      let _ ← sysHookwallPost fullEnv .proceed
      return .returned seq

def dispatchEnvelope (typePrefix fullEnv : List UInt8) (seq : UInt64) : InitProgram Dispatched := do
  let reply ← sysHookwallPre fullEnv
  dispatchGated (verdictOf reply) typePrefix fullEnv seq

/-- The locals of `run` between two rounds of its loop. -/
structure LoopState where
  recvBuf : List UInt8
  consecutiveFailures : UInt32
  seq : UInt64

/-- How a round of the loop ends. -/
inductive Turn
  | again (state : LoopState)
  | exit (status : Int)

def saturatingAddOne (n : UInt32) : UInt32 := if n = 0xffffffff then n else n + 1

/-- One round of the loop of `run`. -/
def loopTurn (state : LoopState) : InitProgram Turn := do
  let (reply, recvBuf) ← sysEnvelopeRecv state.recvBuf recvWaitNs
  match reply with
  | .ok n =>
    if n ≥ 4 then
      match ← dispatchEnvelope (recvBuf.take 4) (recvBuf.take n) state.seq with
      | .returned seq => return .again { recvBuf, consecutiveFailures := 0, seq }
      | .exited status => return .exit status
    else return .again { state with recvBuf }
  | .error .wouldBlock => return .again { state with recvBuf }
  | .error _ =>
    let consecutiveFailures := saturatingAddOne state.consecutiveFailures
    if consecutiveFailures ≥ recvFailureThreshold then
      let _ ← emitEnvelope (utf8 "SOS!") state.seq (utf8 "init-recv-exhausted")
      return .exit 2
    else return .again { state with recvBuf, consecutiveFailures }

/-- `run` up to its loop. -/
def boot : InitProgram Turn := do
  let pid := match ← sysPidCurrent with
    | .ok pid => pid
    | .error _ => (0 : UInt64)
  emitInitReady pid
  return .again { recvBuf := List.replicate initEnvelopeMax 0, consecutiveFailures := 0, seq := 1 }

end Asolaria.Init
