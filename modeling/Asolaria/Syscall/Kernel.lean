import Asolaria.Library.Sha256
import Asolaria.Syscall.Services
import Asolaria.Vfs.FdTable

namespace Asolaria.Syscall
open Library Envelope Vfs

def kernelVersion : List UInt8 := "0.2.0-phase3-scaffold".toUTF8.data.toList

def federationAnchorPid : List UInt8 := "ASOLARIA-FEDERATION-REMAKE-1024-PID-2026-05-11".toUTF8.data.toList

/-- The statics behind the syscalls. -/
structure Kernel where
  slot : Slot
  fds : FdTable
  execHandleNext : UInt64
  spawnChildCounter : UInt64
  nextVirtualBase : UInt64
  monotonicCounter : UInt64
  appendSeqCounter : UInt64

namespace Kernel

def initial : Kernel where
  slot := Slot.initial
  fds := FdTable.initial
  execHandleNext := 1
  spawnChildCounter := 0
  nextVirtualBase := virtualBaseStart
  monotonicCounter := 0
  appendSeqCounter := 0

def sysRead (k : Kernel) (fd : UInt64) (buf : List UInt8) (len : Nat) :
    Except SyscallErr Nat × List UInt8 × Kernel :=
  if len > buf.length then (.error .invalid, buf, k)
  else
    let (reply, after, slot) := vfsRead k.slot k.fds fd buf len
    (reply.mapError fun _ => .invalid, after, { k with slot })

def sysWrite (k : Kernel) (fd : UInt64) (buf : List UInt8) : Except SyscallErr Nat × Kernel :=
  if buf.isEmpty then (.error .invalid, k)
  else
    let (reply, slot) := vfsWrite k.slot k.fds fd buf
    (reply.mapError fun _ => .invalid, { k with slot })

/-- How the errors of an enqueue appear to a sender. -/
def sendErr : EnvelopeErr → SyscallErr
  | .queueFull => .exhausted
  | _ => .invalid

/-- How the errors of a dequeue appear to a receiver. -/
def recvErr : EnvelopeErr → SyscallErr
  | .queueEmpty => .wouldBlock
  | _ => .invalid

/-- `sys_exec`: the handle counter moves only when the envelope was taken,
and wraps like every `fetch_add`. -/
def sysExec (k : Kernel) (envelopeBytes : List UInt8) : Except SyscallErr UInt64 × Kernel :=
  if envelopeBytes.length < minEnvelopeBytes then (.error .invalid, k)
  else
    match dispatchEnqueueBytes k.slot envelopeBytes 0 with
    | (.ok _, slot) => (.ok k.execHandleNext, { k with slot, execHandleNext := k.execHandleNext + 1 })
    | (.error error, slot) => (.error (sendErr error), { k with slot })

def sysFork (k : Kernel) : Except SyscallErr UInt64 × Kernel :=
  match spawnChildAgent k.spawnChildCounter with
  | (.ok child, spawnChildCounter) => (.ok child, { k with spawnChildCounter })
  | (.error .registryFull, spawnChildCounter) => (.error .exhausted, { k with spawnChildCounter })
  | (.error _, spawnChildCounter) => (.error .invalid, { k with spawnChildCounter })

def sysMmap (k : Kernel) (len : UInt64) (prot : UInt32) : Except SyscallErr UInt64 × Kernel :=
  if len = 0 then (.error .invalid, k)
  else if prot = 0 then (.error .invalid, k)
  else
    match allocPages k.nextVirtualBase len with
    | (.ok address, nextVirtualBase) => (.ok address, { k with nextVirtualBase })
    | (.error .poolExhausted, nextVirtualBase) => (.error .exhausted, { k with nextVirtualBase })
    | (.error _, nextVirtualBase) => (.error .invalid, { k with nextVirtualBase })

def sysMunmap (addr len : UInt64) : Except SyscallErr Unit :=
  if addr = 0 then .error .invalid
  else if len = 0 then .error .invalid
  else (freePages addr len).mapError fun _ => .invalid

def sysTime (k : Kernel) : Except SyscallErr UInt64 × Kernel :=
  (.ok k.monotonicCounter, { k with monotonicCounter := k.monotonicCounter + 1 })

def sysEnvelopeSend (k : Kernel) (env : List UInt8) (routeHint : UInt32) : Except SyscallErr Unit × Kernel :=
  if env.length < minEnvelopeBytes then (.error .invalid, k)
  else
    let (reply, slot) := dispatchEnqueueBytes k.slot env routeHint
    (reply.mapError sendErr, { k with slot })

def sysEnvelopeRecv (k : Kernel) (buf : List UInt8) (maxWaitNs : UInt64) :
    Except SyscallErr Nat × List UInt8 × Kernel :=
  if buf.isEmpty then (.error .invalid, buf, k)
  else
    let (reply, after, slot) := dispatchDequeueBytes k.slot buf maxWaitNs
    (reply.mapError recvErr, after, { k with slot })

/-- `sys_pid_current`: every caller has the PID of the anchor. -/
def sysPidCurrent : Except SyscallErr UInt64 :=
  .ok (((Sha256.digest federationAnchorPid).toList.take 8).foldl (fun v byte => (v <<< 8) ||| byte.toUInt64) 0)

/-- `sys_hookwall_pre` reads the slot and the syscall number off the first
two bytes of the envelope. -/
def sysHookwallPre (env : List UInt8) : Except SyscallErr HookwallVerdict :=
  match env with
  | slot :: syscallNo :: _ => hookwallPre ⟨slot, syscallNo, 0, .micro, .publicTier⟩
  | _ => .error .invalid

def sysHookwallPost (k : Kernel) (env : List UInt8) (verdict : HookwallVerdict) : Except SyscallErr Unit × Kernel :=
  match env with
  | slot :: syscallNo :: _ =>
    let (reply, appendSeqCounter) := hookwallPost k.appendSeqCounter ⟨slot, syscallNo, 0, .micro, .publicTier⟩ verdict
    (reply, { k with appendSeqCounter })
  | _ => (.error .invalid, k)

def minCosignRowBytes : Nat := 16

def sysCosignAppend (k : Kernel) (row : List UInt8) : Except SyscallErr UInt64 × Kernel :=
  if row.length < minCosignRowBytes then (.error .invalid, k)
  else
    let (reply, appendSeqCounter) := append k.appendSeqCounter row
    (reply.mapError fun _ => .cosignReject, { k with appendSeqCounter })

def vfsOpen (k : Kernel) (path : List UInt8) (mode : UInt32) : Except VfsErr UInt64 × Kernel :=
  let (reply, fds) := Vfs.vfsOpen k.fds path mode
  (reply, { k with fds })

def vfsClose (k : Kernel) (fd : UInt64) : Except VfsErr Unit × Kernel :=
  let (reply, fds) := Vfs.vfsClose k.fds fd
  (reply, { k with fds })

end Kernel

/-- The syscalls that read and write none of the statics. -/
inductive StatelessCall
  | pidCurrent
  | hookwallPre (env : List UInt8)
  | tierQuery (path : List UInt8)
  | gnnInfer (input out : List UInt8)

/-- One call and what it returned; `given` is a buffer before the call and
`buf` the same buffer after it. -/
inductive KernelLabel
  | read (fd : UInt64) (given : List UInt8) (len : Nat) (reply : Except SyscallErr Nat) (buf : List UInt8)
  | write (fd : UInt64) (buf : List UInt8) (reply : Except SyscallErr Nat)
  | exec (envelopeBytes : List UInt8) (reply : Except SyscallErr UInt64)
  | fork (reply : Except SyscallErr UInt64)
  | mmap (len : UInt64) (prot : UInt32) (reply : Except SyscallErr UInt64)
  | munmap (addr len : UInt64) (reply : Except SyscallErr Unit)
  | time (reply : Except SyscallErr UInt64)
  | envelopeSend (env : List UInt8) (routeHint : UInt32) (reply : Except SyscallErr Unit)
  | envelopeRecv (given : List UInt8) (maxWaitNs : UInt64) (reply : Except SyscallErr Nat) (buf : List UInt8)
  | hookwallPost (env : List UInt8) (verdict : HookwallVerdict) (reply : Except SyscallErr Unit)
  | cosignAppend (row : List UInt8) (reply : Except SyscallErr UInt64)
  | stateless (call : StatelessCall)
  | vfsOpen (path : List UInt8) (mode : UInt32) (reply : Except VfsErr UInt64)
  | vfsClose (fd : UInt64) (reply : Except VfsErr Unit)

/-- One call of any of the syscalls, or of `vfs_open` and `vfs_close`, with
any arguments. `sys_exit` does not return, so no step follows it. -/
inductive KernelStep (k : Kernel) : KernelLabel → Kernel → Prop
  | read (fd buf len) : KernelStep k (.read fd buf len (k.sysRead fd buf len).1 (k.sysRead fd buf len).2.1)
      (k.sysRead fd buf len).2.2
  | write (fd buf) : KernelStep k (.write fd buf (k.sysWrite fd buf).1) (k.sysWrite fd buf).2
  | exec (envelopeBytes) : KernelStep k (.exec envelopeBytes (k.sysExec envelopeBytes).1) (k.sysExec envelopeBytes).2
  | fork : KernelStep k (.fork k.sysFork.1) k.sysFork.2
  | mmap (len prot) : KernelStep k (.mmap len prot (k.sysMmap len prot).1) (k.sysMmap len prot).2
  | munmap (addr len) : KernelStep k (.munmap addr len (Kernel.sysMunmap addr len)) k
  | time : KernelStep k (.time k.sysTime.1) k.sysTime.2
  | envelopeSend (env routeHint) : KernelStep k (.envelopeSend env routeHint (k.sysEnvelopeSend env routeHint).1)
      (k.sysEnvelopeSend env routeHint).2
  | envelopeRecv (buf maxWaitNs) : KernelStep k (.envelopeRecv buf maxWaitNs (k.sysEnvelopeRecv buf maxWaitNs).1
      (k.sysEnvelopeRecv buf maxWaitNs).2.1) (k.sysEnvelopeRecv buf maxWaitNs).2.2
  | hookwallPost (env verdict) : KernelStep k (.hookwallPost env verdict (k.sysHookwallPost env verdict).1)
      (k.sysHookwallPost env verdict).2
  | cosignAppend (row) : KernelStep k (.cosignAppend row (k.sysCosignAppend row).1) (k.sysCosignAppend row).2
  | stateless (call) : KernelStep k (.stateless call) k
  | vfsOpen (path mode) : KernelStep k (.vfsOpen path mode (k.vfsOpen path mode).1) (k.vfsOpen path mode).2
  | vfsClose (fd) : KernelStep k (.vfsClose fd (k.vfsClose fd).1) (k.vfsClose fd).2

end Asolaria.Syscall
