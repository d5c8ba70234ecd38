import Mathlib.Data.List.Basic

namespace Library

variable {σ α β : Type*}

/-- A nested loop visits the inner lists one after another. -/
theorem foldlM_flatMap {m : Type _ → Type _} [Monad m] [LawfulMonad m] (inner : β → List α) (visit : σ → α → m σ)
    (outer : List β) (s : σ) :
    (outer.flatMap inner).foldlM visit s = outer.foldlM (fun s b => (inner b).foldlM visit s) s := by
  induction outer generalizing s with
  | nil => rfl
  | cons b rest ih =>
    rw [List.flatMap_cons, List.foldlM_append, List.foldlM_cons]
    exact bind_congr fun next => ih next

/-- A loop whose steps never stop the program is the loop over what they give. -/
theorem run_foldlM_eq_some {σ ε : Type} {checked : σ → α → ExceptT ε Option σ} {visit : σ → α → Except ε σ}
    (same : ∀ s a, (checked s a).run = some (visit s a)) (items : List α) (s : σ) :
    (items.foldlM checked s).run = some (items.foldlM visit s) := by
  induction items generalizing s with
  | nil => rfl
  | cons a rest ih =>
    rw [List.foldlM_cons, List.foldlM_cons, ExceptT.run_bind, same]
    cases visit s a with
    | error stopped => rfl
    | ok next => exact ih next

/-- A loop body that takes in one item and returns from all loops when the
state is full. -/
def collect (push : σ → α → σ) (full : σ → Prop) [DecidablePred full] (s : σ) (a : α) : Except σ σ :=
  if full (push s a) then .error (push s a) else .ok (push s a)

/-- The state a loop ends in, whether it returned early or not. -/
def outcome : Except σ σ → σ
  | .error s => s
  | .ok s => s

section Cap
variable {push : σ → α → σ} {full : σ → Prop} [DecidablePred full] {size : σ → Nat} {cap : Nat} {s : σ}

/-- A loop that returns when it holds `cap` items takes in the first `cap`, and
returns early where there are so many. -/
theorem foldlM_collect (grows : ∀ s a, size s < cap → size (push s a) = size s + 1) (full_iff : ∀ s, full s ↔ cap ≤ size s)
    (items : List α) (room : size s < cap) :
    items.foldlM (collect push full) s = if cap - size s ≤ items.length then .error ((items.take (cap - size s)).foldl push s)
      else .ok ((items.take (cap - size s)).foldl push s) := by
  induction items generalizing s with
  | nil =>
    rw [if_neg (by rw [List.length_nil]; omega), List.take_nil]
    rfl
  | cons a rest ih =>
    have grown := grows s a room
    obtain ⟨left, remaining⟩ : ∃ left, cap - size s = left + 1 := ⟨cap - size s - 1, by omega⟩
    rw [List.foldlM_cons, remaining, List.take_succ_cons, List.foldl_cons, collect, List.length_cons]
    by_cases last : full (push s a)
    · have none : left = 0 := by
        have := (full_iff _).mp last
        omega
      rw [if_pos last, none, List.take_zero, if_pos (by omega)]
      rfl
    · have more : ¬ cap ≤ size (push s a) := fun reached => last ((full_iff _).mpr reached)
      have rest_eq := ih (Nat.not_le.mp more)
      rw [grown, Nat.sub_add_eq, remaining, Nat.add_sub_cancel] at rest_eq
      rw [if_neg last]
      exact rest_eq.trans (if_congr Nat.add_le_add_iff_right.symm rfl rfl)

theorem outcome_foldlM_collect (grows : ∀ s a, size s < cap → size (push s a) = size s + 1)
    (full_iff : ∀ s, full s ↔ cap ≤ size s) (items : List α) (room : size s < cap) :
    outcome (items.foldlM (collect push full) s) = (items.take (cap - size s)).foldl push s := by
  rw [foldlM_collect grows full_iff items room]
  split
  · rfl
  · rfl

end Cap

end Library
