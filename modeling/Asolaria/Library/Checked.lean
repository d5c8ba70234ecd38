import Asolaria.Library.Copy
import Mathlib.Algebra.Group.Nat.Defs

namespace Library

variable {α : Type*}

/-- The largest value of a machine word of 64 bits. -/
def usizeMax : Nat := 2 ^ 64 - 1

/-- `a + b`, which stops the program where it does not fit. -/
def addChecked (a b : Nat) : Option Nat := if a + b ≤ usizeMax then some (a + b) else none

/-- `a % b`, which stops the program at zero. -/
def remChecked (a b : Nat) : Option Nat := if b = 0 then none else some (a % b)

/-- `buf[i] = value`. -/
def setChecked (buf : List α) (i : Nat) (value : α) : Option (List α) :=
  if i < buf.length then some (buf.set i value) else none

/-- `&buf[start..stop]`. -/
def sliceChecked (buf : List α) (start stop : Nat) : Option (List α) :=
  if start ≤ stop ∧ stop ≤ buf.length then some ((buf.take stop).drop start) else none

/-- `buf[start..stop].copy_from_slice(source)`. -/
def copyChecked (buf : List α) (start stop : Nat) (source : List α) : Option (List α) :=
  if start ≤ stop ∧ stop ≤ buf.length ∧ source.length = stop - start then
    some (copyFromSlice buf start source)
  else none

theorem addChecked_of_le {a b bound : Nat} (fits : a + b ≤ bound) (word : bound ≤ usizeMax) :
    addChecked a b = some (a + b) := if_pos (Nat.le_trans fits word)

theorem remChecked_eq_none {a b : Nat} : remChecked a b = none ↔ b = 0 := by
  unfold remChecked
  split
  · next zero => exact iff_of_true rfl zero
  · next positive => exact iff_of_false (Option.some_ne_none _) positive

theorem setChecked_append {front rest : List α} {old value : α} {i : Nat} (here : i = front.length) :
    setChecked (front ++ old :: rest) i value = some (front ++ value :: rest) := by
  subst here
  have inside : front.length < (front ++ old :: rest).length := by
    rw [List.length_append, List.length_cons]
    omega
  rw [setChecked, if_pos inside, List.set_append_right _ _ (Nat.le_refl _), Nat.sub_self, List.set_cons_zero]

theorem sliceChecked_zero {buf : List α} {stop : Nat} (inside : stop ≤ buf.length) :
    sliceChecked buf 0 stop = some (buf.take stop) := by
  rw [sliceChecked, if_pos ⟨Nat.zero_le stop, inside⟩, List.drop_zero]

theorem sliceChecked_length {buf : List α} {start : Nat} (inside : start ≤ buf.length) :
    sliceChecked buf start buf.length = some (buf.drop start) := by
  rw [sliceChecked, if_pos ⟨inside, Nat.le_refl _⟩, List.take_length]

theorem copyChecked_append {front old source rest : List α} {start stop : Nat} (here : start = front.length)
    (length : old.length = source.length) (finish : stop = start + source.length) :
    copyChecked (front ++ (old ++ rest)) start stop source = some (front ++ (source ++ rest)) := by
  have inside : start ≤ stop ∧ stop ≤ (front ++ (old ++ rest)).length ∧ source.length = stop - start := by
    rw [List.length_append, List.length_append]
    omega
  rw [copyChecked, if_pos inside, here, copyFromSlice_append length]

end Library
