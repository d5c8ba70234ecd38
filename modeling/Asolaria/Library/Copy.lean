import Mathlib.Data.List.Basic

namespace Library

variable {α : Type*}

/-- The body of a copying loop, `target[i] = source[i]`. -/
def copyCell (source target : List α) (i : Nat) : List α :=
  match source[i]? with
  | some value => target.set i value
  | none => target

/-- The whole loop over `0..n`, one cell after another. -/
def copyPrefix (source target : List α) : Nat → List α
  | 0 => target
  | n + 1 => copyCell source (copyPrefix source target n) n

@[simp] theorem length_copyCell (source target : List α) (i : Nat) :
    (copyCell source target i).length = target.length := by
  unfold copyCell
  split
  · exact List.length_set
  · rfl

@[simp] theorem length_copyPrefix (source target : List α) (n : Nat) :
    (copyPrefix source target n).length = target.length := by
  induction n with
  | zero => rfl
  | succ n ih => rw [copyPrefix, length_copyCell, ih]

/-- A loop that has copied `n` cells leaves the tail of the target alone. -/
theorem copyCell_overlay {source target : List α} {n : Nat} (inSource : n < source.length)
    (inTarget : n < target.length) :
    copyCell source (source.take n ++ target.drop n) n = source.take (n + 1) ++ target.drop (n + 1) := by
  have taken : (source.take n).length = n := by
    rw [List.length_take]
    omega
  rw [copyCell, List.getElem?_eq_getElem inSource]
  show (source.take n ++ target.drop n).set n source[n] = source.take (n + 1) ++ target.drop (n + 1)
  rw [List.set_append_right n _ (by omega), taken, Nat.sub_self, List.drop_eq_getElem_cons inTarget, List.set_cons_zero,
    List.take_succ_eq_append_getElem inSource, List.append_assoc]
  rfl

theorem copyPrefix_eq {source target : List α} {n : Nat} (inSource : n ≤ source.length) (inTarget : n ≤ target.length) :
    copyPrefix source target n = source.take n ++ target.drop n := by
  induction n with
  | zero => rfl
  | succ n ih => rw [copyPrefix, ih (by omega) (by omega), copyCell_overlay (by omega) (by omega)]

/-- `buf[start..start + source.len()].copy_from_slice(source)`. -/
def copyFromSlice (buf : List α) (start : Nat) (source : List α) : List α :=
  buf.take start ++ source ++ buf.drop (start + source.length)

theorem length_copyFromSlice {buf source : List α} {start : Nat} (inside : start + source.length ≤ buf.length) :
    (copyFromSlice buf start source).length = buf.length := by
  rw [copyFromSlice, List.length_append, List.length_append, List.length_take, List.length_drop]
  omega

theorem copyFromSlice_append {front old source rest : List α} (length : old.length = source.length) :
    copyFromSlice (front ++ (old ++ rest)) front.length source = front ++ (source ++ rest) := by
  rw [copyFromSlice, ← length, ← List.append_assoc, ← List.length_append, List.drop_left, List.append_assoc front old,
    List.take_left, List.append_assoc]

end Library
