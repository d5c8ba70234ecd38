import Mathlib.Algebra.Order.Floor.Div
import Asolaria.Syscall.KernelRun

namespace Asolaria.Syscall
open Library

/-- The bytes of the whole pages a request takes, as an exact number. -/
def roundedBytes (len : UInt64) : Nat := (len.toNat ⌈/⌉ pageBytes.toNat) * pageBytes.toNat

/-- The same in the wrapping arithmetic of `alloc_pages`. -/
def bytesNeeded (len : UInt64) : UInt64 := (len + pageBytes - 1) / pageBytes * pageBytes

/-- The longest request whose rounding up does not wrap around. -/
def longestRequest : Nat := 2 ^ 64 - pageBytes.toNat

/-- A watermark as the allocator leaves it. -/
structure InPool (watermark : UInt64) : Prop where
  low : virtualBaseStart ≤ watermark
  high : watermark ≤ virtualBaseEnd
  aligned : watermark % pageBytes = 0

variable {w len : UInt64} {k : Kernel} {prot : UInt32}

theorem roundedBytes_eq (len : UInt64) : roundedBytes len = (len.toNat + 4095) / 4096 * 4096 := by
  rw [roundedBytes, Nat.ceilDiv_eq_add_pred_div]
  rfl

theorem toNat_bytesNeeded (small : len.toNat ≤ longestRequest) : (bytesNeeded len).toNat = roundedBytes len := by
  have bound : len.toNat ≤ 2 ^ 64 - 4096 := small
  have up : (len + pageBytes - 1).toNat = len.toNat + 4095 := by
    rw [UInt64.toNat_sub, UInt64.toNat_add]
    show (2 ^ 64 - 1 + (len.toNat + 4096) % 2 ^ 64) % 2 ^ 64 = len.toNat + 4095
    omega
  rw [bytesNeeded, UInt64.toNat_mul, UInt64.toNat_div, up, roundedBytes_eq]
  show (len.toNat + 4095) / 4096 * 4096 % 2 ^ 64 = (len.toNat + 4095) / 4096 * 4096
  omega

theorem bytesNeeded_wrapped (large : longestRequest < len.toNat) : bytesNeeded len = 0 := by
  have bound : 2 ^ 64 - 4096 < len.toNat := large
  have below := len.toNat_lt
  have up : (len + pageBytes - 1).toNat = len.toNat + 4095 - 2 ^ 64 := by
    rw [UInt64.toNat_sub, UInt64.toNat_add]
    show (2 ^ 64 - 1 + (len.toNat + 4096) % 2 ^ 64) % 2 ^ 64 = len.toNat + 4095 - 2 ^ 64
    omega
  apply UInt64.toNat_inj.mp
  rw [bytesNeeded, UInt64.toNat_mul, UInt64.toNat_div, up]
  show (len.toNat + 4095 - 2 ^ 64) / 4096 * 4096 % 2 ^ 64 = 0
  omega

theorem roundedBytes_aligned (len : UInt64) : roundedBytes len % 4096 = 0 := Nat.mul_mod_left _ _

theorem le_roundedBytes (len : UInt64) : len.toNat ≤ roundedBytes len := by
  rw [roundedBytes_eq]
  omega

theorem InPool.bounds (pool : InPool w) :
    4096 ≤ w.toNat ∧ w.toNat ≤ virtualBaseEnd.toNat ∧ w.toNat % 4096 = 0 := by
  refine ⟨UInt64.le_iff_toNat_le.mp pool.low, UInt64.le_iff_toNat_le.mp pool.high, ?_⟩
  have aligned := congrArg UInt64.toNat pool.aligned
  rw [UInt64.toNat_mod] at aligned
  exact aligned

theorem InPool.of_bounds (low : 4096 ≤ w.toNat) (high : w.toNat ≤ virtualBaseEnd.toNat) (aligned : w.toNat % 4096 = 0) :
    InPool w := by
  refine ⟨UInt64.le_iff_toNat_le.mpr low, UInt64.le_iff_toNat_le.mpr high, UInt64.toNat_inj.mp ?_⟩
  rw [UInt64.toNat_mod]
  exact aligned

theorem InPool.initial : InPool virtualBaseStart := ⟨by decide, by decide, by decide⟩

/-- The saturating bump of the watermark either stays in the pool and is
exact, or lies past its end. -/
theorem saturatingAdd_case (w bytes : UInt64) :
    (w.toNat + bytes.toNat ≤ virtualBaseEnd.toNat ∧ ¬ saturatingAdd w bytes > virtualBaseEnd ∧
      (saturatingAdd w bytes).toNat = w.toNat + bytes.toNat) ∨
    (virtualBaseEnd.toNat < w.toNat + bytes.toNat ∧ saturatingAdd w bytes > virtualBaseEnd) := by
  have top : virtualBaseEnd.toNat = 0x4001000 := rfl
  by_cases fits : w.toNat + bytes.toNat < 2 ^ 64
  · have sum := toNat_add_of_lt fits
    rw [saturatingAdd, if_pos fits, gt_iff_lt, UInt64.lt_iff_toNat_lt, sum]
    by_cases inside : w.toNat + bytes.toNat ≤ virtualBaseEnd.toNat
    · exact .inl ⟨inside, by omega, rfl⟩
    · exact .inr ⟨by omega, by omega⟩
  · refine .inr ⟨by omega, ?_⟩
    rw [saturatingAdd, if_neg fits]
    decide

/-- What `alloc_pages` does with the bytes it has computed. -/
theorem allocPages_case (w : UInt64) (nonzero : len ≠ 0) :
    (∃ next, w.toNat + (bytesNeeded len).toNat ≤ virtualBaseEnd.toNat ∧
      next.toNat = w.toNat + (bytesNeeded len).toNat ∧ allocPages w len = (.ok w, next)) ∨
    (virtualBaseEnd.toNat < w.toNat + (bytesNeeded len).toNat ∧ allocPages w len = (.error .poolExhausted, w)) := by
  have unfolded : allocPages w len = if saturatingAdd w (bytesNeeded len) > virtualBaseEnd
      then (.error .poolExhausted, w) else (.ok w, saturatingAdd w (bytesNeeded len)) := if_neg nonzero
  rw [unfolded]
  rcases saturatingAdd_case w (bytesNeeded len) with ⟨inside, stays, sum⟩ | ⟨outside, leaves⟩
  · exact .inl ⟨_, inside, sum, by rw [if_neg stays]⟩
  · exact .inr ⟨outside, by rw [if_pos leaves]⟩

theorem bytesNeeded_aligned (len : UInt64) : (bytesNeeded len).toNat % 4096 = 0 := by
  by_cases small : len.toNat ≤ longestRequest
  · rw [toNat_bytesNeeded small]
    exact roundedBytes_aligned len
  · rw [bytesNeeded_wrapped (Nat.not_le.mp small)]
    rfl

/-- A bump that stays below the end of the pool leaves a proper watermark. -/
theorem InPool.bumped {next : UInt64} (pool : InPool w) (inside : w.toNat + (bytesNeeded len).toNat ≤ virtualBaseEnd.toNat)
    (sum : next.toNat = w.toNat + (bytesNeeded len).toNat) : InPool next := by
  obtain ⟨low, -, aligned⟩ := pool.bounds
  have rounded := bytesNeeded_aligned len
  exact .of_bounds (by omega) (by omega) (by omega)

theorem InPool.allocPages (pool : InPool w) (len : UInt64) : InPool (allocPages w len).2 := by
  by_cases zero : len = 0
  · rw [Syscall.allocPages, if_pos zero]
    exact pool
  · rcases allocPages_case w zero with ⟨next, inside, sum, granted⟩ | ⟨_, refused⟩
    · rw [granted]
      exact pool.bumped inside sum
    · rw [refused]
      exact pool

theorem Kernel.sysMmap_watermark (k : Kernel) (len : UInt64) (prot : UInt32) :
    (k.sysMmap len prot).2.nextVirtualBase = k.nextVirtualBase ∨
      (k.sysMmap len prot).2.nextVirtualBase = (allocPages k.nextVirtualBase len).2 := by
  unfold Kernel.sysMmap
  split
  · exact .inl rfl
  · split
    · exact .inl rfl
    · split <;> next reached => exact .inr (by rw [reached])

/-- Only `sys_mmap` moves the watermark. -/
theorem KernelStep.watermark {label : KernelLabel} {after : Kernel} (step : KernelStep k label after) :
    after.nextVirtualBase = k.nextVirtualBase ∨
      ∃ len, after.nextVirtualBase = (allocPages k.nextVirtualBase len).2 := by
  cases step with
  | mmap len prot => exact (k.sysMmap_watermark len prot).imp_right fun moved => ⟨len, moved⟩
  | munmap | stateless | time | vfsOpen | vfsClose => exact .inl rfl
  | read fd buf len =>
    unfold Kernel.sysRead
    split <;> exact .inl rfl
  | write fd buf =>
    unfold Kernel.sysWrite
    split <;> exact .inl rfl
  | exec env =>
    unfold Kernel.sysExec
    repeat' split
    all_goals exact .inl rfl
  | fork =>
    unfold Kernel.sysFork
    split <;> exact .inl rfl
  | envelopeSend env routeHint =>
    unfold Kernel.sysEnvelopeSend
    split <;> exact .inl rfl
  | envelopeRecv buf maxWaitNs =>
    unfold Kernel.sysEnvelopeRecv
    split <;> exact .inl rfl
  | hookwallPost env verdict =>
    unfold Kernel.sysHookwallPost
    split <;> exact .inl rfl
  | cosignAppend row =>
    unfold Kernel.sysCosignAppend
    split <;> exact .inl rfl

theorem KernelRun.inPool {history : KernelHistory} (run : KernelRun history k) : InPool k.nextVirtualBase := by
  induction run with
  | start => exact InPool.initial
  | next _ step ih =>
    rcases step.watermark with kept | ⟨len, moved⟩
    · rwa [kept]
    · rw [moved]
      exact ih.allocPages len

/-- What `sys_mmap` promises for a request that is not rejected outright. -/
structure MmapContract (k : Kernel) (len : UInt64) (prot : UInt32) : Prop where
  succeeds_iff : (k.sysMmap len prot).1.isOk = true ↔
    roundedBytes len ≤ virtualBaseEnd.toNat - k.nextVirtualBase.toNat
  granted : ∀ ptr, (k.sysMmap len prot).1 = .ok ptr →
    ptr = k.nextVirtualBase ∧ ptr % pageBytes = 0 ∧ virtualBaseStart ≤ ptr ∧ ptr < virtualBaseEnd ∧
    (k.sysMmap len prot).2.nextVirtualBase.toNat = k.nextVirtualBase.toNat + roundedBytes len ∧
    Kernel.sysMunmap ptr len = .ok ()
  refused : (k.sysMmap len prot).1.isOk = false →
    (k.sysMmap len prot).1 = .error .exhausted ∧ (k.sysMmap len prot).2.nextVirtualBase = k.nextVirtualBase

theorem Kernel.sysMmap_ok {ptr next : UInt64} (nonzero : len ≠ 0) (allowed : prot ≠ 0)
    (granted : Syscall.allocPages k.nextVirtualBase len = (.ok ptr, next)) :
    k.sysMmap len prot = (.ok ptr, { k with nextVirtualBase := next }) := by
  rw [Kernel.sysMmap, if_neg nonzero, if_neg allowed, granted]

theorem Kernel.sysMmap_exhausted (nonzero : len ≠ 0) (allowed : prot ≠ 0)
    (refused : Syscall.allocPages k.nextVirtualBase len = (.error .poolExhausted, k.nextVirtualBase)) :
    k.sysMmap len prot = (.error .exhausted, k) := by
  rw [Kernel.sysMmap, if_neg nonzero, if_neg allowed, refused]

theorem Kernel.sysMunmap_inPool {ptr : UInt64} (pool : InPool ptr) (inside : ptr < virtualBaseEnd) (nonzero : len ≠ 0) :
    Kernel.sysMunmap ptr len = .ok () := by
  have notNull : ptr ≠ 0 := by
    rintro rfl
    exact absurd pool.low (by decide)
  have range : ¬ (ptr < virtualBaseStart ∨ ptr ≥ virtualBaseEnd) := by
    rintro (below | above)
    · exact UInt64.not_le.mpr below pool.low
    · exact UInt64.not_le.mpr inside above
  rw [Kernel.sysMunmap, if_neg notNull, if_neg nonzero, freePages, if_neg notNull, if_neg nonzero, if_neg range,
    if_neg (not_not.mpr pool.aligned)]
  rfl

theorem mmap_contract_of_short (pool : InPool k.nextVirtualBase) (nonzero : len ≠ 0) (allowed : prot ≠ 0)
    (small : len.toNat ≤ longestRequest) : MmapContract k len prot := by
  have positive : 0 < len.toNat := Nat.pos_of_ne_zero fun zero => nonzero (UInt64.toNat_inj.mp zero)
  have rounded := le_roundedBytes len
  have bound := pool.bounds.2.1
  rcases allocPages_case k.nextVirtualBase nonzero with ⟨next, inside, sum, granted⟩ | ⟨outside, refused⟩
  · rw [toNat_bytesNeeded small] at inside sum
    have reached := Kernel.sysMmap_ok nonzero allowed granted
    constructor
    · rw [reached]
      exact ⟨fun _ => by omega, fun _ => rfl⟩
    · intro ptr returned
      rw [reached] at returned ⊢
      obtain rfl := Except.ok.inj returned
      have below : k.nextVirtualBase < virtualBaseEnd := UInt64.lt_iff_toNat_lt.mpr (by omega)
      exact ⟨rfl, pool.aligned, pool.low, below, sum, Kernel.sysMunmap_inPool pool below nonzero⟩
    · intro failed
      rw [reached] at failed
      cases failed
  · rw [toNat_bytesNeeded small] at outside
    have reached := Kernel.sysMmap_exhausted nonzero allowed refused
    constructor
    · rw [reached]
      exact ⟨fun ok => (by cases ok), fun fits => by omega⟩
    · intro ptr returned
      rw [reached] at returned
      cases returned
    · intro _
      rw [reached]
      exact ⟨rfl, rfl⟩

/-- A request too long to be rounded up takes no page and still succeeds. -/
theorem sysMmap_wrapped (pool : InPool k.nextVirtualBase) (nonzero : len ≠ 0) (allowed : prot ≠ 0)
    (large : longestRequest < len.toNat) : (k.sysMmap len prot).1 = .ok k.nextVirtualBase := by
  have none : (bytesNeeded len).toNat = 0 := by
    rw [bytesNeeded_wrapped large]
    rfl
  rcases allocPages_case k.nextVirtualBase nonzero with ⟨next, _, _, granted⟩ | ⟨outside, _⟩
  · rw [Kernel.sysMmap_ok nonzero allowed granted]
  · have bound := pool.bounds.2.1
    omega

/-- For every reachable watermark: `sys_mmap` keeps its promise for exactly
the requests that can be rounded up to whole pages. -/
theorem KernelRun.mmap_contract_iff {history : KernelHistory} (run : KernelRun history k) (nonzero : len ≠ 0)
    (allowed : prot ≠ 0) : MmapContract k len prot ↔ len.toNat ≤ longestRequest := by
  have pool := KernelRun.inPool run
  constructor
  · intro contract
    by_contra large
    have granted := sysMmap_wrapped pool nonzero allowed (Nat.not_le.mp large)
    have fits := contract.succeeds_iff.mp (by rw [granted]; rfl)
    have rounded := le_roundedBytes len
    have longest : longestRequest = 2 ^ 64 - 4096 := rfl
    have top : virtualBaseEnd.toNat = 0x4001000 := rfl
    omega
  · exact mmap_contract_of_short pool nonzero allowed

theorem mmap_contract_onePage : MmapContract Kernel.initial 1 1 :=
  (KernelRun.mmap_contract_iff .start (by decide) (by decide)).mpr (by decide)

/-- The longest request there is gets an address on a new allocator, and no
page with it. -/
theorem mmap_contract_usizeMax : ¬ MmapContract Kernel.initial 0xffffffffffffffff 1 := by
  intro contract
  have granted : (Kernel.initial.sysMmap 0xffffffffffffffff 1).1 = .ok virtualBaseStart :=
    sysMmap_wrapped InPool.initial (by decide) (by decide) (by decide)
  have fits := contract.succeeds_iff.mp (by rw [granted]; rfl)
  rw [roundedBytes_eq] at fits
  revert fits
  decide

end Asolaria.Syscall
