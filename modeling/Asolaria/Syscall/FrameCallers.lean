import Asolaria.Library.Interleaving
import Asolaria.Library.Watermark
import Asolaria.Syscall.Mmap

namespace Asolaria.Syscall
open Library

/-- A finished `alloc_pages`. -/
structure FrameReturn where
  len : UInt64
  reply : Except FrameErr UInt64

/-- A length that can be rounded up to whole pages without wrapping around. -/
abbrev Request := { len : UInt64 // len.toNat ≤ longestRequest }

/-- The atomic operation a caller of `alloc_pages` is about to perform: the
first load, or the exchange of the watermark it last saw. -/
inductive FrameLocation
  | idle
  | load (len : Request)
  | exchange (len : Request) (current : UInt64) (room : ¬ saturatingAdd current (bytesNeeded len) > virtualBaseEnd)

/-- The entry of a call, up to its first atomic operation. -/
def enterAllocPages (len : Request) : FrameLocation × Option FrameReturn :=
  if len.val = 0 then (.idle, some ⟨len, .error .invalidLen⟩) else (.load len, none)

/-- The head of the loop, for the watermark just seen. -/
def FrameLocation.attempt (len : Request) (current : UInt64) : FrameLocation × Option FrameReturn :=
  if full : saturatingAdd current (bytesNeeded len) > virtualBaseEnd then (.idle, some ⟨len, .error .poolExhausted⟩)
  else (.exchange len current full, none)

/-- One atomic operation: the watermark, where the caller stands next, and
what it returns if the call ends here. -/
def FrameLocation.advance (nextVirtualBase : UInt64) :
    FrameLocation → Option (UInt64 × FrameLocation × Option FrameReturn)
  | .idle => none
  | .load len => some (nextVirtualBase, attempt len nextVirtualBase)
  | .exchange len current _ =>
    if nextVirtualBase = current then
      some (saturatingAdd current (bytesNeeded len), .idle, some ⟨len, .ok current⟩)
    else some (nextVirtualBase, attempt len nextVirtualBase)

/-- A caller enters a call or performs its next atomic operation. -/
inductive FrameCallerStep : UInt64 → FrameLocation → Option FrameReturn → UInt64 → FrameLocation → Prop
  | enter {watermark} (len : Request) :
      FrameCallerStep watermark .idle (enterAllocPages len).2 watermark (enterAllocPages len).1
  | atomic {watermark location returned after next} : location.advance watermark = some (after, next, returned) →
      FrameCallerStep watermark location returned after next

/-- The watermark and all its callers. -/
abbrev FrameThreads (ι : Type) := Threads ι UInt64 FrameLocation

abbrev FrameHistory (ι : Type) := List (Transition (FrameThreads ι) (ι × Option FrameReturn))

/-- Any interleaving of any number of callers, from the empty pool. -/
abbrev FrameRun {ι : Type} [DecidableEq ι] (history : FrameHistory ι) (frames : FrameThreads ι) : Prop :=
  Run (InterleavedStep FrameCallerStep) ⟨virtualBaseStart, fun _ => .idle⟩ history frames

def usedBytes (nextVirtualBase : UInt64) : UInt64 := nextVirtualBase - virtualBaseStart

def freeBytes (nextVirtualBase : UInt64) : UInt64 := virtualBaseEnd - nextVirtualBase

/-- The range a successful call was given, with its exact rounded length. -/
def FrameReturn.block? : FrameReturn → Option Block
  | ⟨len, .ok ptr⟩ => some ⟨ptr.toNat, roundedBytes len⟩
  | ⟨_, .error _⟩ => none

variable {ι : Type} {history : FrameHistory ι} {frames : FrameThreads ι}

/-- All ranges handed out, in the order of the exchanges. -/
def allocated (history : FrameHistory ι) : List Block :=
  history.filterMap fun step => step.label.2.bind FrameReturn.block?

/-- What one step of a caller can do to the watermark: leave it alone, or
raise it by exactly the rounded length and return where it was. -/
inductive FrameCase (w : UInt64) : Option FrameReturn → UInt64 → Prop
  | aside {returned} : returned.bind FrameReturn.block? = none → FrameCase w returned w
  | granted {after} (len : UInt64) : w.toNat + roundedBytes len ≤ virtualBaseEnd.toNat →
      after.toNat = w.toNat + roundedBytes len → FrameCase w (some ⟨len, .ok w⟩) after

variable {w after : UInt64} {location next : FrameLocation} {returned : Option FrameReturn}

theorem FrameLocation.attempt_case {len : Request} {current : UInt64} (located : attempt len current = (next, returned)) :
    FrameCase w returned w := by
  unfold attempt at located
  split at located
  · cases located
    exact .aside rfl
  · cases located
    exact .aside rfl

theorem FrameLocation.advance_case (moved : location.advance w = some (after, next, returned)) :
    FrameCase w returned after := by
  cases location with
  | idle => cases moved
  | load len =>
    obtain ⟨rfl, located⟩ := Prod.mk.inj (Option.some.inj moved)
    exact attempt_case located
  | exchange len current room =>
    rw [FrameLocation.advance] at moved
    by_cases unchanged : w = current
    · rw [if_pos unchanged] at moved
      cases moved
      subst unchanged
      have rounded := toNat_bytesNeeded len.property
      rcases saturatingAdd_case w (bytesNeeded len) with ⟨inside, _, sum⟩ | ⟨_, outside⟩
      · rw [rounded] at inside sum
        exact .granted len.val inside sum
      · exact absurd outside room
    · rw [if_neg unchanged] at moved
      obtain ⟨rfl, located⟩ := Prod.mk.inj (Option.some.inj moved)
      exact attempt_case located

theorem FrameCallerStep.case (step : FrameCallerStep w location returned after next) : FrameCase w returned after := by
  cases step with
  | enter len =>
    unfold enterAllocPages
    split
    · exact .aside rfl
    · exact .aside rfl
  | atomic moved => exact FrameLocation.advance_case moved

theorem allocated_next (history : FrameHistory ι) (step : Transition (FrameThreads ι) (ι × Option FrameReturn)) :
    allocated (history ++ [step]) = allocated history ++ (step.label.2.bind FrameReturn.block?).toList := by
  rw [allocated, List.filterMap_append, filterMap_single]
  rfl

/-- The watermark and everything handed out below it. -/
structure FrameRecord (blocks : List Block) (watermark : UInt64) : Prop where
  claimed : Claimed virtualBaseStart.toNat blocks watermark.toNat
  total : watermark.toNat = virtualBaseStart.toNat + (blocks.map Block.size).sum
  aligned : ∀ block ∈ blocks, block.address % 4096 = 0
  pool : InPool watermark

theorem FrameRecord.step {blocks : List Block} (record : FrameRecord blocks w) (step : FrameCase w returned after) :
    FrameRecord (blocks ++ (returned.bind FrameReturn.block?).toList) after := by
  cases step with
  | aside silent =>
    rw [silent, Option.toList_none, List.append_nil]
    exact record
  | granted len inside sum =>
    obtain ⟨low, -, aligned⟩ := record.pool.bounds
    have rounded := roundedBytes_aligned len
    have claimed := Claimed.claim ⟨w.toNat, roundedBytes len⟩ record.claimed (Nat.le_refl _)
    rw [Block.stop, ← sum] at claimed
    refine ⟨claimed, ?_, ?_, .of_bounds (by omega) (by omega) (by omega)⟩
    · have total := record.total
      simp only [Option.bind_some, FrameReturn.block?, Option.toList_some, List.map_append, List.map_singleton,
        List.sum_append, List.sum_singleton]
      omega
    · intro block member
      rcases List.mem_append.mp member with old | new
      · exact record.aligned block old
      · obtain rfl := List.mem_singleton.mp new
        exact aligned

variable [DecidableEq ι]

theorem FrameRun.record (run : FrameRun history frames) : FrameRecord (allocated history) frames.shared := by
  induction run with
  | start => exact ⟨.start, rfl, fun block member => (by cases member), InPool.initial⟩
  | @next history frames label after _ step ih =>
    rw [allocated_next]
    exact ih.step step.act_shared.case

/-- For every interleaving of any callers: the ranges handed out are disjoint,
page-aligned and inside the pool, the used bytes are the sum of their lengths,
and used and free bytes make up the pool. -/
theorem FrameRun.no_range_shared (run : FrameRun history frames) :
    (allocated history).Pairwise Block.Apart ∧
    (∀ block ∈ allocated history, block.address % pageBytes.toNat = 0 ∧
      virtualBaseStart.toNat ≤ block.address ∧ block.stop ≤ virtualBaseEnd.toNat) ∧
    (usedBytes frames.shared).toNat = ((allocated history).map Block.size).sum ∧
    (usedBytes frames.shared).toNat + (freeBytes frames.shared).toNat = poolBytes.toNat := by
  have record := FrameRun.record run
  obtain ⟨low, high, -⟩ := record.pool.bounds
  have start : virtualBaseStart.toNat = 4096 := rfl
  have top : virtualBaseEnd.toNat = 0x4001000 := rfl
  have pool : poolBytes.toNat = 0x4000000 := rfl
  have used : (usedBytes frames.shared).toNat = frames.shared.toNat - virtualBaseStart.toNat := by
    exact UInt64.toNat_sub_of_le _ _ record.pool.low
  have free : (freeBytes frames.shared).toNat = virtualBaseEnd.toNat - frames.shared.toNat :=
    UInt64.toNat_sub_of_le _ _ record.pool.high
  have total := record.total
  refine ⟨record.claimed.apart, fun block member => ?_, by omega, by omega⟩
  obtain ⟨first, stop⟩ := record.claimed.within member
  exact ⟨record.aligned block member, first, by omega⟩

/-- Two callers read the same watermark; the one that comes second retries
and gets the next page. -/
theorem no_range_shared_race : ∃ (history : FrameHistory Bool) (frames : FrameThreads Bool), FrameRun history frames ∧
    (allocated history).map (fun block => (block.address, block.size)) = [(4096, 4096), (8192, 4096)] ∧
    (usedBytes frames.shared).toNat = 8192 := by
  let page : Request := ⟨1, by decide⟩
  have room (w : UInt64) (below : w = 4096 ∨ w = 8192) : ¬ saturatingAdd w (bytesNeeded page.val) > virtualBaseEnd := by
    rcases below with rfl | rfl <;> decide
  have enters (w : UInt64) : FrameCallerStep w .idle none w (.load page) := .enter page
  have sees (w : UInt64) (below : w = 4096 ∨ w = 8192) :
      FrameCallerStep w (.load page) none w (.exchange page w (room w below)) :=
    .atomic (by rw [FrameLocation.advance, FrameLocation.attempt, dif_neg (room w below)])
  have claims (w : UInt64) (below : w = 4096 ∨ w = 8192) :
      FrameCallerStep w (.exchange page w (room w below)) (some ⟨1, .ok w⟩) (saturatingAdd w (bytesNeeded 1)) .idle :=
    .atomic (if_pos rfl)
  have retries : FrameCallerStep 8192 (.exchange page 4096 (room 4096 (.inl rfl))) none 8192
      (.exchange page 8192 (room 8192 (.inr rfl))) :=
    .atomic (by rw [FrameLocation.advance, if_neg (by decide), FrameLocation.attempt, dif_neg (room 8192 (.inr rfl))])
  have run : Run (InterleavedStep FrameCallerStep) ⟨virtualBaseStart, fun _ : Bool => .idle⟩ _ _ :=
    .next (.next (.next (.next (.next (.next (.next .start
      (.act (i := true) (enters 4096))) (.act (i := false) (enters 4096)))
      (.act (i := true) (sees 4096 (.inl rfl)))) (.act (i := false) (sees 4096 (.inl rfl))))
      (.act (i := true) (claims 4096 (.inl rfl)))) (.act (i := false) retries))
      (.act (i := false) (claims 8192 (.inr rfl)))
  have summed := (FrameRun.no_range_shared run).2.2.1
  refine ⟨_, _, run, by rfl, ?_⟩
  rw [summed]
  rfl

end Asolaria.Syscall
