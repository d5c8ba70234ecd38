import Mathlib.Data.List.Basic

namespace Library

/-- A range of addresses handed out by an allocator. -/
structure Block where
  address : Nat
  size : Nat

namespace Block

/-- The first address behind the block. -/
def stop (block : Block) : Nat := block.address + block.size

/-- The two blocks have no address in common. -/
def Apart (a b : Block) : Prop := a.stop ≤ b.address ∨ b.stop ≤ a.address

end Block

/-- Blocks that were taken one after the other above a watermark, with gaps
where an alignment asked for them or where addresses were given up. -/
inductive Claimed (first : Nat) : List Block → Nat → Prop
  | start : Claimed first [] first
  | claim {blocks watermark} (block : Block) : Claimed first blocks watermark → watermark ≤ block.address →
      Claimed first (blocks ++ [block]) block.stop
  | skip {blocks watermark further} : Claimed first blocks watermark → watermark ≤ further →
      Claimed first blocks further

variable {first watermark : Nat} {blocks : List Block}

theorem Claimed.first_le (claimed : Claimed first blocks watermark) : first ≤ watermark := by
  induction claimed with
  | start => exact Nat.le_refl _
  | claim block _ above ih =>
    rw [Block.stop]
    omega
  | skip _ above ih => exact Nat.le_trans ih above

theorem Claimed.within (claimed : Claimed first blocks watermark) {block : Block} (member : block ∈ blocks) :
    first ≤ block.address ∧ block.stop ≤ watermark := by
  induction claimed with
  | start => cases member
  | @claim blocks watermark last previous above ih =>
    have low := previous.first_le
    rcases List.mem_append.mp member with old | new
    · obtain ⟨start, stop⟩ := ih old
      have further : last.address ≤ last.stop := Nat.le_add_right _ _
      exact ⟨start, by omega⟩
    · obtain rfl := List.mem_singleton.mp new
      exact ⟨by omega, Nat.le_refl _⟩
  | skip _ above ih =>
    obtain ⟨start, stop⟩ := ih member
    exact ⟨start, Nat.le_trans stop above⟩

/-- Blocks taken above a watermark never meet. -/
theorem Claimed.apart (claimed : Claimed first blocks watermark) : blocks.Pairwise Block.Apart := by
  induction claimed with
  | start => exact .nil
  | @claim blocks watermark last previous above ih =>
    rw [List.pairwise_append]
    refine ⟨ih, List.pairwise_singleton .., fun earlier member later single => ?_⟩
    obtain rfl := List.mem_singleton.mp single
    have stop := (previous.within member).2
    exact .inl (by omega)
  | skip _ _ ih => exact ih

end Library
