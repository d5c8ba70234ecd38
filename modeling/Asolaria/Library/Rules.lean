import Mathlib.Data.List.Forall2
import Mathlib.Logic.Basic

namespace Library

variable {ε : Type*}

/-- The verdict of rules taken in order: accepted if they all hold, else
rejected with the reason of the first one that does not. -/
inductive Verdict : List (Prop × ε) → Except ε Unit → Prop
  | accepted : Verdict [] (.ok ())
  | holds {rule : Prop} {reason rest result} : rule → Verdict rest result → Verdict ((rule, reason) :: rest) result
  | violated {rule : Prop} {reason rest} : ¬ rule → Verdict ((rule, reason) :: rest) (.error reason)

def AllHold (rules : List (Prop × ε)) : Prop := ∀ rule ∈ rules, rule.1

/-- Checks made in order, each with the error that its failure returns. -/
def checkAll : List (Bool × ε) → Except ε Unit
  | [] => .ok ()
  | (passes, reason) :: rest => if passes then checkAll rest else .error reason

variable {rules front back : List (Prop × ε)} {checks : List (Bool × ε)} {result : Except ε Unit} {rule : Prop} {reason : ε}

theorem verdict_cons_iff :
    Verdict ((rule, reason) :: rules) result ↔ rule ∧ Verdict rules result ∨ ¬ rule ∧ result = .error reason := by
  constructor
  · intro verdict
    cases verdict with
    | holds kept rest => exact .inl ⟨kept, rest⟩
    | violated broken => exact .inr ⟨broken, rfl⟩
  · rintro (⟨kept, rest⟩ | ⟨broken, rfl⟩)
    · exact .holds kept rest
    · exact .violated broken

/-- Rules in front decide alone as soon as one of them is violated. -/
theorem verdict_append_iff : Verdict (front ++ back) result ↔
    AllHold front ∧ Verdict back result ∨ ¬ AllHold front ∧ Verdict front result := by
  induction front with
  | nil => simp [AllHold]
  | cons first front ih =>
    obtain ⟨rule, reason⟩ := first
    rw [List.cons_append, verdict_cons_iff, verdict_cons_iff, ih, AllHold, AllHold, List.forall_mem_cons]
    by_cases kept : rule
    · simp [kept]
    · simp [kept]

theorem Verdict.ok_iff (verdict : Verdict rules result) : result = .ok () ↔ AllHold rules := by
  induction verdict with
  | accepted => simp [AllHold]
  | holds kept _ ih => simp [ih, kept, AllHold]
  | violated broken => simp [broken, AllHold]

/-- A rejection carries the reason of one of the rules, and that rule is violated. -/
theorem Verdict.error_mem (verdict : Verdict rules (.error reason)) : ∃ rule ∈ rules, ¬ rule.1 ∧ rule.2 = reason := by
  generalize failed : Except.error reason = result at verdict
  induction verdict with
  | accepted => cases failed
  | holds _ _ ih =>
    obtain ⟨rule, member, broken⟩ := ih failed
    exact ⟨rule, List.mem_cons_of_mem _ member, broken⟩
  | violated broken =>
    cases failed
    exact ⟨_, List.mem_cons_self .., broken, rfl⟩

/-- A rejection in front of the checks is one more check. -/
theorem reject_eq_checkAll {fails : Prop} [Decidable fails] {passes : Bool} {later : Except ε Unit}
    (decided : fails ↔ passes = false) (same : later = checkAll checks) :
    (if fails then .error reason else later) = checkAll ((passes, reason) :: checks) := by
  rw [checkAll, ← same]
  cases passes with
  | false => rw [if_pos (decided.mpr rfl), if_neg Bool.false_ne_true]
  | true =>
    have kept : ¬ fails := fun failed => by cases decided.mp failed
    rw [if_neg kept, if_pos rfl]

/-- Checks that decide the rules one by one reach the verdict of the rules. -/
theorem checkAll_verdict
    (decides : List.Forall₂ (fun check rule => (check.1 = true ↔ rule.1) ∧ check.2 = rule.2) checks rules) :
    Verdict rules (checkAll checks) := by
  induction decides with
  | nil => exact .accepted
  | @cons check rule checks rules same _ ih =>
    obtain ⟨passes, reason⟩ := check
    obtain ⟨holds, error⟩ := rule
    obtain ⟨decided, rfl⟩ := same
    by_cases passed : passes = true
    · rw [checkAll, if_pos passed]
      exact .holds (decided.mp passed) ih
    · rw [checkAll, if_neg passed]
      exact .violated fun kept => passed (decided.mpr kept)

end Library
