import Asolaria.Library.MachineInt

namespace Asolaria.Syscall
open Library

/-- The errors of `SyscallErr`. -/
inductive SyscallErr
  | unimplemented
  | invalid
  | wouldBlock
  | permissionDenied
  | hookwallBlock
  | exhausted
  | cosignReject
  deriving DecidableEq, Repr

inductive HookwallVerdict
  | proceed
  | hold
  | block
  deriving DecidableEq, Repr

inductive AccessTier
  | publicTier
  | restricted
  | stealth
  | hidden
  | shadow
  | secret
  | sovereignty
  deriving DecidableEq, Repr

/-- The errors of the frame allocator. -/
inductive FrameErr
  | poolExhausted
  | invalidLen
  | invalidPointer
  | notPageAligned
  | unimplemented
  deriving DecidableEq, Repr

def pageBytes : UInt64 := 4096

def poolPages : UInt64 := 16384

def poolBytes : UInt64 := poolPages * pageBytes

def virtualBaseStart : UInt64 := 0x1000

def virtualBaseEnd : UInt64 := virtualBaseStart + poolBytes

/-- `alloc_pages` over `NEXT_VIRTUAL_BASE` without interference, in the
wrapping arithmetic of the release profile: the address and the new watermark. -/
def allocPages (nextVirtualBase len : UInt64) : Except FrameErr UInt64 × UInt64 :=
  if len = 0 then (.error .invalidLen, nextVirtualBase)
  else
    let pagesNeeded := (len + pageBytes - 1) / pageBytes
    let bytesNeeded := pagesNeeded * pageBytes
    let newNext := saturatingAdd nextVirtualBase bytesNeeded
    if newNext > virtualBaseEnd then (.error .poolExhausted, nextVirtualBase) else (.ok nextVirtualBase, newNext)

/-- `free_pages` validates and releases nothing. -/
def freePages (ptr len : UInt64) : Except FrameErr Unit :=
  if ptr = 0 then .error .invalidPointer
  else if len = 0 then .error .invalidLen
  else if ptr < virtualBaseStart ∨ ptr ≥ virtualBaseEnd then .error .invalidPointer
  else if ptr % pageBytes ≠ 0 then .error .notPageAligned
  else .ok ()

inductive AgentErr
  | registryFull
  | pidMintFailed
  | notFound
  | invalidStateTransition
  | operatorWitnessRequired
  | unimplemented
  deriving DecidableEq, Repr

def agentRegistryMax : Nat := 10000

/-- `spawn_child_agent` over `SPAWN_CHILD_COUNTER`, which is stored back at
the limit once it is past it. -/
def spawnChildAgent (spawnChildCounter : UInt64) : Except AgentErr UInt64 × UInt64 :=
  if spawnChildCounter.toNat ≥ agentRegistryMax then (.error .registryFull, UInt64.ofNat agentRegistryMax)
  else (.ok (spawnChildCounter + 1), spawnChildCounter + 1)

inductive CosignChainErr
  | nonMonotonicRow
  | chainLinkBroken
  | signatureInvalid
  | kindMalformed
  | unimplemented
  deriving DecidableEq, Repr

/-- `cosign_chain::append` over `APPEND_SEQ_COUNTER`. The digest of the row is
computed and dropped. -/
def append (appendSeqCounter : UInt64) (row : List UInt8) : Except CosignChainErr UInt64 × UInt64 :=
  if row.isEmpty then (.error .kindMalformed, appendSeqCounter) else (.ok (appendSeqCounter + 1), appendSeqCounter + 1)

def hookwallSlotCount : Nat := 64

inductive HookTier
  | micro
  | cosign
  | firmware
  deriving DecidableEq, Repr

structure HookContext where
  slot : UInt8
  syscallNo : UInt8
  callerPid : UInt64
  tier : HookTier
  targetTier : AccessTier
  deriving DecidableEq, Repr

def HookTier.code : HookTier → UInt8
  | micro => 1
  | cosign => 2
  | firmware => 3

def HookwallVerdict.code : HookwallVerdict → UInt8
  | proceed => 1
  | hold => 2
  | block => 3

def AccessTier.code : AccessTier → UInt8
  | publicTier => 0
  | restricted => 1
  | stealth => 2
  | hidden => 3
  | shadow => 4
  | secret => 5
  | sovereignty => 6

/-- The 16-byte verdict row: slot, syscall, tier, verdict, the caller in
little-endian order, target tier and the ASCII mark. -/
def composeVerdictRow (ctx : HookContext) (verdict : HookwallVerdict) : List UInt8 :=
  [ctx.slot, ctx.syscallNo, ctx.tier.code, verdict.code] ++
    (beBytes 8 ctx.callerPid.toNat).reverse ++ [ctx.targetTier.code, 72, 86, 68]

/-- `hookwall_pre`: the verdict is decided by the tier alone. -/
def hookwallPre (ctx : HookContext) : Except SyscallErr HookwallVerdict :=
  if ctx.slot.toNat ≥ hookwallSlotCount then .error .invalid
  else
    .ok (match ctx.tier with
      | .micro => .proceed
      | .cosign => .hold
      | .firmware => .block)

def hookwallPost (appendSeqCounter : UInt64) (ctx : HookContext) (verdict : HookwallVerdict) :
    Except SyscallErr Unit × UInt64 :=
  if ctx.slot.toNat ≥ hookwallSlotCount then (.error .invalid, appendSeqCounter)
  else
    match append appendSeqCounter (composeVerdictRow ctx verdict) with
    | (.error _, counter) => (.error .cosignReject, counter)
    | (.ok _, counter) => (.ok (), counter)

end Asolaria.Syscall
