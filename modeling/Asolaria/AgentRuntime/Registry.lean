import Asolaria.Library.MachineInt
import Asolaria.Library.Table
import Asolaria.Syscall.Services

namespace Asolaria.AgentRuntime
open Library Syscall

inductive AgentState
  | spawned
  | working
  | heartbeating
  | failed
  | retired
  deriving DecidableEq, Repr

inductive AgentRole
  | hermes
  | spaceDeckDriver
  | spaceAgent
  | pi
  | omnispindle
  | omniflywheel
  | bigPickle
  | subAgent
  deriving DecidableEq, Repr

inductive AgentClass
  | virtualPointer
  | realReceiptGated
  | ambiguous
  deriving DecidableEq, Repr

inductive VantageId
  | acer
  | liris
  | falcon
  | aether
  deriving DecidableEq, Repr

structure AgentEntry where
  agentPid : String
  role : AgentRole
  state : AgentState
  vantage : VantageId
  tier : AccessTier
  agentClass : AgentClass
  spawnedAtNs : UInt64
  lastHeartbeatNs : UInt64
  deriving DecidableEq, Repr

structure DispatchCounters where
  virtualRegistered : UInt64 := 0
  omnidispatchRouted : UInt64 := 0
  receiptGatedHelper : UInt64 := 0
  opencodeFreeAgentCall : UInt64 := 0
  osProcessSpawn : UInt64 := 0
  ambiguousHeld : UInt64 := 0
  deriving DecidableEq, Repr

structure AgentRegistry where
  entries : List AgentEntry
  counters : DispatchCounters
  deriving DecidableEq, Repr

def classifyRequest (plannedOsSpawns : UInt32) (hasReceipt : Bool) : AgentClass :=
  if plannedOsSpawns = 0 then .virtualPointer
  else if hasReceipt then .realReceiptGated
  else .ambiguous

/-- FNV-1a over the little-endian bytes of the parts. -/
def fnv1a64 (parts : List UInt64) : UInt64 :=
  parts.foldl (fun h p =>
    (beBytes 8 p.toNat).reverse.foldl (fun h (byte : UInt8) => (h ^^^ byte.toUInt64) * 0x00000100000001b3) h)
    0xcbf29ce484222325

def roleTag : AgentRole → String
  | .hermes => "HRM"
  | .spaceDeckDriver => "SDD"
  | .spaceAgent => "SPA"
  | .pi => "PI"
  | .omnispindle => "SPN"
  | .omniflywheel => "FLY"
  | .bigPickle => "BPK"
  | .subAgent => "SUB"

def AgentRole.code : AgentRole → UInt64
  | hermes => 0
  | spaceDeckDriver => 1
  | spaceAgent => 2
  | pi => 3
  | omnispindle => 4
  | omniflywheel => 5
  | bigPickle => 6
  | subAgent => 7

def vantageTag : VantageId → String
  | .acer => "ACER"
  | .liris => "LIRIS"
  | .falcon => "FALCON"
  | .aether => "AETHER"

def VantageId.code : VantageId → UInt64
  | acer => 0
  | liris => 1
  | falcon => 2
  | aether => 3

/-- The format `{:012X}` of a number below 2^48. -/
def upperHex12 (n : UInt64) : String :=
  String.ofList ((List.range 12).map fun i => (Nat.digitChar (n.toNat / 16 ^ (11 - i) % 16)).toUpper)

def mintAgentPid (handle : UInt64) (role : AgentRole) (vantage : VantageId) (tier : AccessTier) : String :=
  let seed := fnv1a64 [handle, role.code, vantage.code, tier.code.toUInt64]
  let hex12 := seed &&& 0x0000FFFFFFFFFFFF
  "AGT-" ++ vantageTag vantage ++ "-" ++ roleTag role ++ "-H" ++ upperHex12 hex12

namespace AgentRegistry

def new : AgentRegistry := ⟨[], {}⟩

/-- The live agents. -/
def count (registry : AgentRegistry) : Nat := registry.entries.countP fun e => e.state ≠ .retired

def countInVantage (registry : AgentRegistry) (v : VantageId) : Nat :=
  registry.entries.countP fun e => e.vantage = v ∧ e.state ≠ .retired

/-- The push of a registration and the counter of its class. -/
def registered (registry : AgentRegistry) (entry : AgentEntry) : AgentRegistry where
  entries := registry.entries ++ [entry]
  counters :=
    match entry.agentClass with
    | .virtualPointer => { registry.counters with virtualRegistered := registry.counters.virtualRegistered + 1 }
    | .realReceiptGated => { registry.counters with receiptGatedHelper := registry.counters.receiptGatedHelper + 1 }
    | .ambiguous => { registry.counters with ambiguousHeld := registry.counters.ambiguousHeld + 1 }

def register (registry : AgentRegistry) (role : AgentRole) (vantage : VantageId) (tier : AccessTier)
    (agentClass : AgentClass) : Except AgentErr String × AgentRegistry :=
  if registry.count ≥ agentRegistryMax then (.error .registryFull, registry)
  else
    let handle := UInt64.ofNat registry.entries.length + 1
    let agentPid := mintAgentPid handle role vantage tier
    if agentPid.isEmpty then (.error .pidMintFailed, registry)
    else (.ok agentPid, registry.registered ⟨agentPid, role, .spawned, vantage, tier, agentClass, 0, 0⟩)

def spawn (registry : AgentRegistry) (role : AgentRole) (vantage : VantageId) (tier : AccessTier) :
    Except AgentErr String × AgentRegistry :=
  registry.register role vantage tier .virtualPointer

def spawnRealGated (registry : AgentRegistry) (role : AgentRole) (vantage : VantageId) (tier : AccessTier)
    (hasReceipt : Bool) : Except AgentErr String × AgentRegistry :=
  registry.register role vantage tier (classifyRequest 1 hasReceipt)

/-- The loop over the entries up to the first one with the PID, whose update
may fail. Nothing is written on a failure. -/
def updateAgent (registry : AgentRegistry) (agentPid : String) (update : AgentEntry → Except AgentErr AgentEntry) :
    Except AgentErr Unit × AgentRegistry :=
  match updateFirst (fun e => e.agentPid == agentPid) update .notFound registry.entries with
  | .error error => (.error error, registry)
  | .ok entries => (.ok (), { registry with entries := entries })

def retire (registry : AgentRegistry) (agentPid : String) : Except AgentErr Unit × AgentRegistry :=
  registry.updateAgent agentPid fun e => .ok { e with state := .retired }

def heartbeat (registry : AgentRegistry) (agentPid : String) (nowNs : UInt64) : Except AgentErr Unit × AgentRegistry :=
  registry.updateAgent agentPid fun e =>
    if e.state = .retired then .error .invalidStateTransition else .ok { e with lastHeartbeatNs := nowNs }

def noteOmnidispatchRouted (registry : AgentRegistry) : AgentRegistry :=
  { registry with
    counters := { registry.counters with omnidispatchRouted := registry.counters.omnidispatchRouted + 1 } }

def noteOpencodeFreeAgentCall (registry : AgentRegistry) : AgentRegistry :=
  { registry with
    counters := { registry.counters with opencodeFreeAgentCall := registry.counters.opencodeFreeAgentCall + 1 } }

def noteOsProcessSpawn (registry : AgentRegistry) : AgentRegistry :=
  { registry with counters := { registry.counters with osProcessSpawn := registry.counters.osProcessSpawn + 1 } }

end AgentRegistry

inductive RegistryCall
  | spawn (role : AgentRole) (vantage : VantageId) (tier : AccessTier)
  | spawnRealGated (role : AgentRole) (vantage : VantageId) (tier : AccessTier) (hasReceipt : Bool)
  | retire (agentPid : String)
  | heartbeat (agentPid : String) (nowNs : UInt64)
  | noteOmnidispatchRouted
  | noteOpencodeFreeAgentCall
  | noteOsProcessSpawn
  deriving DecidableEq, Repr

/-- A call on the registry with its result; the PID is that of a registration. -/
def AgentRegistry.perform (registry : AgentRegistry) : RegistryCall → Except AgentErr (Option String) × AgentRegistry
  | .spawn role vantage tier =>
    let (result, after) := registry.spawn role vantage tier
    (result.map some, after)
  | .spawnRealGated role vantage tier hasReceipt =>
    let (result, after) := registry.spawnRealGated role vantage tier hasReceipt
    (result.map some, after)
  | .retire agentPid =>
    let (result, after) := registry.retire agentPid
    (result.map fun _ => none, after)
  | .heartbeat agentPid nowNs =>
    let (result, after) := registry.heartbeat agentPid nowNs
    (result.map fun _ => none, after)
  | .noteOmnidispatchRouted => (.ok none, registry.noteOmnidispatchRouted)
  | .noteOpencodeFreeAgentCall => (.ok none, registry.noteOpencodeFreeAgentCall)
  | .noteOsProcessSpawn => (.ok none, registry.noteOsProcessSpawn)

end Asolaria.AgentRuntime
