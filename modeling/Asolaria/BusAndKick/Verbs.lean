import Asolaria.Library.Guard
import Asolaria.Library.Search
import Asolaria.Library.Uppercase

namespace Asolaria.BusAndKick
open Library

inductive ActionClass
  | busOnly
  | kickOnly
  | postAndKick
  | heartbeat
  deriving DecidableEq, Repr

def classifyVerb (unicode : UnicodeUpper) (verb : String) : ActionClass :=
  let v := toUppercase unicode verb.toList
  if contains "HEARTBEAT".toList v || contains "PULSE_LOOP".toList v || contains "STEADY".toList v then .heartbeat
  else if contains "ACTIONABLE".toList v || contains "DIRECTIVE".toList v || contains "WAKE".toList v ||
      contains "ALERT".toList v || contains "KICK_REQUIRED".toList v then .postAndKick
  else .busOnly

def heartbeatVerbFor (unicode : UnicodeUpper) (host : String) : String :=
  "EVT-" ++ String.ofList (toUppercase unicode host.toList) ++ "-HEARTBEAT"

/-- The class that prevails over the others when both are found. -/
def ActionClass.prevailing : ActionClass → ActionClass → ActionClass
  | heartbeat, _ => heartbeat
  | _, heartbeat => heartbeat
  | postAndKick, _ => postAndKick
  | _, postAndKick => postAndKick
  | _, _ => busOnly

/-- What the words of a verb come to. -/
def prevailingOf (classes : List ActionClass) : ActionClass := classes.foldr ActionClass.prevailing .busOnly

/-- The marks of a heartbeat and of what asks for attention. -/
def heartbeatMarks : List (List Char) := ["HEARTBEAT".toList, "PULSE_LOOP".toList, "STEADY".toList]

def kickMarks : List (List Char) :=
  ["ACTIONABLE".toList, "DIRECTIVE".toList, "WAKE".toList, "ALERT".toList, "KICK_REQUIRED".toList]

/-- One of the marks stands in a verb. -/
def Marked (unicode : UnicodeUpper) (marks : List (List Char)) (verb : String) : Prop :=
  ∃ mark ∈ marks, mark <:+: toUppercase unicode verb.toList

/-- What stands between the words of a verb: neither a letter nor an underscore. -/
def IsSeparator (c : Char) : Prop := c.toNat < 128 ∧ c.isAlpha = false ∧ c ≠ '_'

def joined (separator : Char) (words : List String) : String :=
  String.ofList ([separator].intercalate (words.map String.toList))

variable {unicode : UnicodeUpper} {verb : String} {classes : List ActionClass} {separator : Char}

theorem classifyVerb_heartbeat_iff : classifyVerb unicode verb = .heartbeat ↔ Marked unicode heartbeatMarks verb := by
  simp only [classifyVerb, Marked, heartbeatMarks, Bool.or_eq_true, contains_iff, List.mem_cons, List.not_mem_nil, or_false,
    exists_eq_or_imp, exists_eq_left, or_assoc]
  split
  · next marked => exact iff_of_true rfl marked
  · next other =>
    refine iff_of_false ?_ other
    split <;> exact ActionClass.noConfusion

theorem classifyVerb_busOnly_iff : classifyVerb unicode verb = .busOnly ↔
    ¬ Marked unicode heartbeatMarks verb ∧ ¬ Marked unicode kickMarks verb := by
  simp only [classifyVerb, Marked, heartbeatMarks, kickMarks, Bool.or_eq_true, contains_iff, List.mem_cons,
    List.not_mem_nil, or_false, exists_eq_or_imp, exists_eq_left, or_assoc]
  split
  · next marked => exact iff_of_false ActionClass.noConfusion fun silent => silent.1 marked
  · next other =>
    split
    · next marked => exact iff_of_false ActionClass.noConfusion fun silent => silent.2 marked
    · next silent => exact iff_of_true rfl ⟨other, silent⟩

theorem classifyVerb_ne_kickOnly : classifyVerb unicode verb ≠ .kickOnly := by
  rw [classifyVerb]
  split
  · exact ActionClass.noConfusion
  · split <;> exact ActionClass.noConfusion

theorem prevailing_heartbeat_iff {a b : ActionClass} : a.prevailing b = .heartbeat ↔ a = .heartbeat ∨ b = .heartbeat := by
  cases a <;> cases b <;> decide

@[simp] theorem prevailingOf_cons (first : ActionClass) (rest : List ActionClass) :
    prevailingOf (first :: rest) = first.prevailing (prevailingOf rest) := rfl

theorem prevailingOf_heartbeat_iff : prevailingOf classes = .heartbeat ↔ .heartbeat ∈ classes := by
  induction classes with
  | nil => decide
  | cons first rest ih =>
    rw [prevailingOf_cons, prevailing_heartbeat_iff, ih, List.mem_cons]
    exact or_congr_left eq_comm

theorem prevailing_busOnly_iff {a b : ActionClass} (a_kick : a ≠ .kickOnly) (b_kick : b ≠ .kickOnly) :
    a.prevailing b = .busOnly ↔ a = .busOnly ∧ b = .busOnly := by
  revert a_kick b_kick
  cases a <;> cases b <;> decide

theorem prevailing_ne_kickOnly {a b : ActionClass} : a.prevailing b ≠ .kickOnly := by
  cases a <;> cases b <;> decide

theorem prevailingOf_ne_kickOnly : prevailingOf classes ≠ .kickOnly := by
  cases classes with
  | nil => decide
  | cons first rest => exact prevailing_ne_kickOnly

theorem prevailingOf_busOnly_iff (noKick : .kickOnly ∉ classes) :
    prevailingOf classes = .busOnly ↔ ∀ first ∈ classes, first = .busOnly := by
  induction classes with
  | nil => simp [prevailingOf]
  | cons first rest ih =>
    rw [List.mem_cons, not_or] at noKick
    rw [prevailingOf_cons, prevailing_busOnly_iff (Ne.symm noKick.1) prevailingOf_ne_kickOnly, List.forall_mem_cons]
    exact and_congr_right fun _ => ih noKick.2

/-- A mark stands in joined words exactly if it stands in one of them. -/
theorem marked_joined_iff {marks : List (List Char)} (separates : IsSeparator separator)
    (plain : ∀ mark ∈ marks, mark ≠ [] ∧ mark.all fun c => c.isAlpha || c = '_') (words : List String) :
    Marked unicode marks (joined separator words) ↔ ∃ word ∈ words, Marked unicode marks word := by
  obtain ⟨ascii, noLetter, noLine⟩ := separates
  have caseless : separator.toUpper = separator := by
    refine dif_neg fun lower => ?_
    have letter : separator.isLower = true := Bool.and_eq_true_iff.mpr ⟨decide_eq_true lower.1, decide_eq_true lower.2⟩
    have alpha : separator.isAlpha = true := Bool.or_eq_true_iff.mpr (.inr letter)
    rw [noLetter] at alpha
    cases alpha
  have here : ∀ mark ∈ marks, (mark <:+: toUppercase unicode (joined separator words).toList ↔
      ∃ word ∈ words, mark <:+: toUppercase unicode word.toList) := by
    intro mark member
    have missing : separator ∉ mark := by
      intro inside
      have letter := List.all_eq_true.mp (plain mark member).2 separator inside
      rw [noLetter, Bool.false_or, decide_eq_true_eq] at letter
      exact noLine letter
    rw [joined, String.toList_ofList, toUppercase_intercalate ascii caseless,
      infix_intercalate_iff (plain mark member).1 missing, List.map_map]
    simp only [List.mem_map, exists_exists_and_eq_and, Function.comp_apply]
  constructor
  · rintro ⟨mark, member, stands⟩
    obtain ⟨word, known, inside⟩ := (here mark member).mp stands
    exact ⟨word, known, mark, member, inside⟩
  · rintro ⟨word, known, mark, member, inside⟩
    exact ⟨mark, member, (here mark member).mpr ⟨word, known, inside⟩⟩

/-- The class of a verb is the one that prevails among its words. -/
theorem classifyVerb_joined (unicode : UnicodeUpper) (separates : IsSeparator separator) (words : List String) :
    classifyVerb unicode (joined separator words) = prevailingOf (words.map (classifyVerb unicode)) := by
  have noKick : .kickOnly ∉ words.map (classifyVerb unicode) := by
    rw [List.mem_map]
    rintro ⟨word, _, kick⟩
    exact classifyVerb_ne_kickOnly kick
  have heartbeat : classifyVerb unicode (joined separator words) = .heartbeat ↔
      prevailingOf (words.map (classifyVerb unicode)) = .heartbeat := by
    rw [classifyVerb_heartbeat_iff, marked_joined_iff separates (by decide +kernel), prevailingOf_heartbeat_iff, List.mem_map]
    simp only [classifyVerb_heartbeat_iff]
  have busOnly : classifyVerb unicode (joined separator words) = .busOnly ↔
      prevailingOf (words.map (classifyVerb unicode)) = .busOnly := by
    rw [classifyVerb_busOnly_iff, marked_joined_iff separates (by decide +kernel),
      marked_joined_iff separates (by decide +kernel), prevailingOf_busOnly_iff noKick, List.forall_mem_map]
    simp only [classifyVerb_busOnly_iff, not_exists, not_and, ← forall_and]
  have left := @classifyVerb_ne_kickOnly unicode (joined separator words)
  have right := @prevailingOf_ne_kickOnly (words.map (classifyVerb unicode))
  revert heartbeat busOnly left right
  generalize classifyVerb unicode (joined separator words) = a, prevailingOf (words.map (classifyVerb unicode)) = b
  cases a <;> cases b <;> simp

/-- Unicode as far as ASCII goes. -/
def asciiUpper : UnicodeUpper := ⟨fun c => [c.toUpper], fun _ _ => rfl⟩

theorem classifyVerb_joined_three : classifyVerb asciiUpper (joined '-' ["evt", "Wake", "pulse_loop"]) = .heartbeat :=
  (classifyVerb_joined asciiUpper ⟨by decide, by decide, by decide⟩ ["evt", "Wake", "pulse_loop"]).trans
    (by decide +kernel)

end Asolaria.BusAndKick
