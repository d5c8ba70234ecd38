import Mathlib.Algebra.Order.Floor.Div
import Asolaria.Library.Interleaving
import Asolaria.Library.MachineInt
import Asolaria.Library.Watermark

namespace Asolaria.Boot
open Library

/-- A `Layout` that may be passed to `alloc`: the alignment is a power of two,
the size is not zero, and rounded up to the alignment it is at most `isize::MAX`. -/
structure Layout where
  size : UInt64
  align : UInt64
  power : ∃ k, align.toNat = 2 ^ k
  nonzero : size ≠ 0
  fits : (size.toNat ⌈/⌉ align.toNat) * align.toNat < 2 ^ 63

structure BumpAllocator where
  heapStart : UInt64
  heapEnd : UInt64
  next : UInt64
  deriving DecidableEq

def BumpAllocator.init (start size : UInt64) : BumpAllocator := ⟨start, start + size, start⟩

/-- `(current + align - 1) & !(align - 1)`, in wrapping arithmetic. -/
def alignUp (current align : UInt64) : UInt64 := (current + align - 1) &&& ~~~(align - 1)

/-- The bump pointer an allocation from `current` would leave. -/
def newNext (current : UInt64) (layout : Layout) : UInt64 := alignUp current layout.align + layout.size

/-- A finished `alloc`, with zero for the null pointer. -/
structure AllocReturn where
  layout : Layout
  ptr : UInt64

/-- The atomic operation a caller of `alloc` is about to perform. -/
inductive BumpLocation
  | idle
  | loadEnd (layout : Layout)
  | loadNext (layout : Layout) (heapEnd : UInt64)
  | exchange (layout : Layout) (heapEnd current : UInt64) (room : ¬ newNext current layout > heapEnd)

/-- The head of the loop, for the bump pointer just seen. -/
def BumpLocation.attempt (layout : Layout) (heapEnd current : UInt64) : BumpLocation × Option AllocReturn :=
  if full : newNext current layout > heapEnd then (.idle, some ⟨layout, 0⟩)
  else (.exchange layout heapEnd current full, none)

/-- A caller enters a call or performs its next atomic operation. The weak
exchange may fail although the bump pointer is the one it saw. -/
inductive BumpCallerStep : BumpAllocator → BumpLocation → Option AllocReturn → BumpAllocator → BumpLocation → Prop
  | enter {bump} (layout : Layout) : BumpCallerStep bump .idle none bump (.loadEnd layout)
  | loadEnd {bump layout} : BumpCallerStep bump (.loadEnd layout) none bump (.loadNext layout bump.heapEnd)
  | loadNext {bump layout heapEnd} : BumpCallerStep bump (.loadNext layout heapEnd)
      (BumpLocation.attempt layout heapEnd bump.next).2 bump (BumpLocation.attempt layout heapEnd bump.next).1
  | exchanged {bump layout heapEnd current room} : bump.next = current →
      BumpCallerStep bump (.exchange layout heapEnd current room) (some ⟨layout, alignUp current layout.align⟩)
        { bump with next := newNext current layout } .idle
  | failed {bump layout heapEnd current room} : BumpCallerStep bump (.exchange layout heapEnd current room)
      (BumpLocation.attempt layout heapEnd bump.next).2 bump (BumpLocation.attempt layout heapEnd bump.next).1

/-- The allocator and all its callers. -/
abbrev BumpThreads (ι : Type) := Threads ι BumpAllocator BumpLocation

abbrev BumpHistory (ι : Type) := List (Transition (BumpThreads ι) (ι × Option AllocReturn))

/-- Any interleaving of any number of callers, from the initialised region. -/
abbrev BumpRun {ι : Type} [DecidableEq ι] (start size : UInt64) (history : BumpHistory ι) (bump : BumpThreads ι) : Prop :=
  Run (InterleavedStep BumpCallerStep) ⟨BumpAllocator.init start size, fun _ => .idle⟩ history bump

/-- The block of a result that is not null. -/
def AllocReturn.block? (result : AllocReturn) : Option Block :=
  if result.ptr = 0 then none else some ⟨result.ptr.toNat, result.layout.size.toNat⟩

/-- Neither addition of the loop exceeds a word. -/
def NoWrap (current : UInt64) (layout : Layout) : Prop :=
  current.toNat + layout.align.toNat < 2 ^ 64 ∧ (alignUp current layout.align).toNat + layout.size.toNat < 2 ^ 64

variable {ι : Type} {history : BumpHistory ι} {bump : BumpThreads ι}

/-- What the calls returned, in order. -/
def returns (history : BumpHistory ι) : List AllocReturn := history.filterMap (·.label.2)

/-- The blocks handed out, in order. -/
def blocks (history : BumpHistory ι) : List Block := (returns history).filterMap AllocReturn.block?

variable {current heapEnd : UInt64} {layout : Layout}

/-- A valid layout leaves room in a word behind any address of the region. -/
theorem Layout.bounds (layout : Layout) :
    ∃ k ≤ 62, layout.align.toNat = 2 ^ k ∧ layout.size.toNat < 2 ^ 63 := by
  obtain ⟨k, power⟩ := layout.power
  have fits := layout.fits
  have positive : 0 < layout.size.toNat := Nat.pos_of_ne_zero fun zero => layout.nonzero (UInt64.toNat_inj.mp zero)
  rw [Nat.ceilDiv_eq_add_pred_div, power] at fits
  have covered := le_roundUp layout.size.toNat (Nat.two_pow_pos k)
  have oneBlock : 1 ≤ (layout.size.toNat + 2 ^ k - 1) / 2 ^ k :=
    (Nat.one_le_div_iff (Nat.two_pow_pos k)).mpr (by omega)
  have aligned := Nat.mul_le_mul_right (2 ^ k) oneBlock
  have narrow : 2 ^ k < 2 ^ 63 := by omega
  have exponent : k < 63 := (Nat.pow_lt_pow_iff_right (by decide)).mp narrow
  exact ⟨k, by omega, power, by omega⟩

/-- Within the lower half of the address space the mask computes the least
multiple of the alignment, and nothing wraps around. -/
theorem alignUp_spec (layout : Layout) (low : current.toNat ≤ 2 ^ 63) :
    current.toNat ≤ (alignUp current layout.align).toNat ∧
    (alignUp current layout.align).toNat % layout.align.toNat = 0 ∧ NoWrap current layout := by
  obtain ⟨k, exponent, power, size⟩ := layout.bounds
  have positive := Nat.two_pow_pos k
  have narrow : 2 ^ k ≤ 2 ^ 62 := Nat.pow_le_pow_right (by decide) exponent
  have sum : (current + layout.align - 1).toNat = current.toNat + 2 ^ k - 1 := by
    rw [UInt64.toNat_sub, UInt64.toNat_add, power]
    show (2 ^ 64 - 1 + (current.toNat + 2 ^ k) % 2 ^ 64) % 2 ^ 64 = _
    omega
  have value : (alignUp current layout.align).toNat = (current.toNat + 2 ^ k - 1) / 2 ^ k * 2 ^ k := by
    rw [alignUp, toNat_and_not_mask power, sum]
  have half : 2 ^ 63 = 2 ^ (63 - k) * 2 ^ k := by
    rw [← Nat.pow_add]
    congr 1
    omega
  have bound := roundUp_le positive (half ▸ low)
  rw [← half, ← value] at bound
  refine ⟨?_, ?_, by rw [power]; omega, by omega⟩
  · rw [value]
    exact le_roundUp current.toNat positive
  · rw [value, power]
    exact Nat.mul_mod_left _ _

theorem toNat_newNext (layout : Layout) (low : current.toNat ≤ 2 ^ 63) :
    (newNext current layout).toNat = (alignUp current layout.align).toNat + layout.size.toNat := by
  obtain ⟨_, _, _, sum⟩ := alignUp_spec layout low
  exact toNat_add_of_lt sum

/-- A caller that has read the end of the region has read the true one. -/
def BumpLocation.Knows (heapEnd : UInt64) : BumpLocation → Prop
  | .idle | .loadEnd _ => True
  | .loadNext _ seen | .exchange _ seen _ _ => seen = heapEnd

/-- What one step of a caller can do to the allocator: leave it alone and
return at most null, or hand out the next aligned block. -/
inductive BumpCase (bump : BumpAllocator) : Option AllocReturn → BumpAllocator → Prop
  | aside {returned} : (∀ result, returned = some result → result.ptr = 0) → BumpCase bump returned bump
  | granted (layout : Layout) : ¬ newNext bump.next layout > bump.heapEnd →
      BumpCase bump (some ⟨layout, alignUp bump.next layout.align⟩) { bump with next := newNext bump.next layout }

variable {allocator after : BumpAllocator} {location ahead : BumpLocation} {returned : Option AllocReturn}

theorem BumpLocation.attempt_null {result : AllocReturn} (found : (attempt layout heapEnd current).2 = some result) :
    result.ptr = 0 := by
  unfold attempt at found
  split at found
  · cases found
    rfl
  · cases found

theorem BumpLocation.attempt_knows : (attempt layout heapEnd current).1.Knows heapEnd := by
  unfold attempt
  split
  · trivial
  · rfl

theorem BumpCallerStep.case (step : BumpCallerStep allocator location returned after ahead)
    (knows : location.Knows allocator.heapEnd) : BumpCase allocator returned after := by
  cases step with
  | enter | loadEnd => exact .aside fun result found => by cases found
  | loadNext | failed => exact .aside fun result found => BumpLocation.attempt_null found
  | @exchanged layout heapEnd current room unchanged =>
    subst unchanged
    obtain rfl : heapEnd = allocator.heapEnd := knows
    exact .granted layout room

theorem BumpCallerStep.knows (step : BumpCallerStep allocator location returned after ahead)
    (knows : location.Knows allocator.heapEnd) : ahead.Knows allocator.heapEnd := by
  cases step with
  | enter | exchanged => trivial
  | loadEnd => rfl
  | loadNext | failed =>
    have seen : _ = allocator.heapEnd := knows
    rw [← seen]
    exact BumpLocation.attempt_knows

theorem BumpCase.heapEnd_eq (effect : BumpCase allocator returned after) : after.heapEnd = allocator.heapEnd := by
  cases effect with
  | aside => rfl
  | granted => rfl

/-- The allocator and everything handed out below its bump pointer. -/
structure BumpRecord (start size : UInt64) (results : List AllocReturn) (bump : BumpAllocator) : Prop where
  stop : bump.heapEnd.toNat = start.toNat + size.toNat
  claimed : Claimed start.toNat (results.filterMap AllocReturn.block?) bump.next.toNat
  high : bump.next.toNat ≤ bump.heapEnd.toNat
  aligned : ∀ result ∈ results, result.ptr ≠ 0 → result.ptr.toNat % result.layout.align.toNat = 0

variable {start size : UInt64} {results : List AllocReturn}

theorem BumpRecord.step (record : BumpRecord start size results allocator) (effect : BumpCase allocator returned after)
    (region : start.toNat + size.toNat ≤ 2 ^ 63) : BumpRecord start size (results ++ returned.toList) after := by
  obtain ⟨stop, claimed, high, aligned⟩ := record
  cases effect with
  | aside null =>
    cases returned with
    | none => simpa using ⟨stop, claimed, high, aligned⟩
    | some result =>
      have zero := null result rfl
      refine ⟨stop, ?_, high, fun other member => ?_⟩
      · simpa [AllocReturn.block?, zero] using claimed
      · rcases List.mem_append.mp member with old | new
        · exact aligned other old
        · obtain rfl := List.mem_singleton.mp new
          exact fun present => absurd zero present
  | granted layout room =>
    have low : allocator.next.toNat ≤ 2 ^ 63 := by omega
    obtain ⟨above, multiple, _⟩ := alignUp_spec layout low
    have sum := toNat_newNext layout low
    have inside := UInt64.le_iff_toNat_le.mp (UInt64.not_lt.mp room)
    refine ⟨stop, ?_, inside, fun other member => ?_⟩
    · by_cases null : alignUp allocator.next layout.align = 0
      · -- the first block of a region at address zero is none to its caller
        have further : allocator.next.toNat ≤ (newNext allocator.next layout).toNat := by omega
        simpa [AllocReturn.block?, null] using claimed.skip further
      · have block := claimed.claim ⟨(alignUp allocator.next layout.align).toNat, layout.size.toNat⟩ above
        rw [Block.stop, ← sum] at block
        simpa [AllocReturn.block?, null] using block
    · rcases List.mem_append.mp member with old | new
      · exact aligned other old
      · obtain rfl := List.mem_singleton.mp new
        exact fun _ => multiple

theorem returns_next (history : BumpHistory ι) (step : Transition (BumpThreads ι) (ι × Option AllocReturn)) :
    returns (history ++ [step]) = returns history ++ step.label.2.toList := by
  rw [returns, List.filterMap_append, filterMap_single]
  rfl

variable [DecidableEq ι]

theorem BumpRun.knows (run : BumpRun start size history bump) (i : ι) : (bump.locals i).Knows bump.shared.heapEnd := by
  induction run generalizing i with
  | start => trivial
  | @next history bump label after _ step ih =>
    have caller := step.act_shared
    rw [(caller.case (ih label.1)).heapEnd_eq]
    cases step with
    | @act j label shared location moved =>
      exact AllBut.update_all (AllBut.of_all ih j) (moved.knows (ih j)) i

theorem BumpRun.record (run : BumpRun start size history bump) (region : start.toNat + size.toNat ≤ 2 ^ 63) :
    BumpRecord start size (returns history) bump.shared := by
  induction run with
  | start =>
    have stop : (start + size).toNat = start.toNat + size.toNat := toNat_add_of_lt (by omega)
    refine ⟨stop, .start, ?_, fun result member => by cases member⟩
    show start.toNat ≤ (start + size).toNat
    omega
  | @next history bump label after previous step ih =>
    rw [returns_next]
    exact ih.step (step.act_shared.case (BumpRun.knows previous label.1)) region

end Asolaria.Boot
