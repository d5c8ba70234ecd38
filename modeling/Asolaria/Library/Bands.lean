import Mathlib.Data.List.Basic

namespace Library

/-- A value for a range of numbers, its bounds included. -/
structure Band (β : Type*) where
  low : Nat
  high : Nat
  value : β

variable {β γ : Type*} {bands : List (Band β)} {start stop n : Nat}

def Band.holds (band : Band β) (n : Nat) : Bool := band.low ≤ n && n ≤ band.high

/-- The value of the first range that a number lies in. -/
def bandValue (bands : List (Band β)) (n : Nat) : Option β := (bands.find? (·.holds n)).map Band.value

/-- The ranges lie side by side and fill all there is between two numbers. -/
def Adjoin (start : Nat) : List (Band β) → Nat → Prop
  | [], stop => start = stop
  | band :: rest, stop => band.low = start ∧ band.low ≤ band.high ∧ Adjoin (band.high + 1) rest stop

theorem Adjoin.le (adjoin : Adjoin start bands stop) : start ≤ stop := by
  induction bands generalizing start with
  | nil => exact Nat.le_of_eq adjoin
  | cons band rest ih =>
    obtain ⟨rfl, ordered, behind⟩ := adjoin
    have further := ih behind
    omega

/-- Ranges side by side have a value for the numbers between their ends and
for no others. -/
theorem bandValue_isSome_iff (adjoin : Adjoin start bands stop) (above : start ≤ n) :
    (bandValue bands n).isSome ↔ n < stop := by
  induction bands generalizing start with
  | nil =>
    obtain rfl : start = stop := adjoin
    exact iff_of_false Bool.false_ne_true (Nat.not_lt.mpr above)
  | cons band rest ih =>
    obtain ⟨rfl, _, behind⟩ := adjoin
    rw [bandValue, List.find?_cons]
    by_cases inside : n ≤ band.high
    · have further := behind.le
      rw [Band.holds, decide_eq_true above, decide_eq_true inside]
      exact iff_of_true rfl (by omega)
    · rw [Band.holds, decide_eq_false inside, Bool.and_false]
      exact ih behind (by omega)

def Band.map (f : β → γ) (band : Band β) : Band γ := ⟨band.low, band.high, f band.value⟩

theorem bandValue_map (f : β → γ) (bands : List (Band β)) (n : Nat) :
    bandValue (bands.map (Band.map f)) n = (bandValue bands n).map f := by
  induction bands with
  | nil => rfl
  | cons band rest ih =>
    have same : (band.map f).holds n = band.holds n := rfl
    rw [bandValue, bandValue, List.map_cons, List.find?_cons, List.find?_cons, same]
    cases band.holds n with
    | true => rfl
    | false => exact ih

end Library
