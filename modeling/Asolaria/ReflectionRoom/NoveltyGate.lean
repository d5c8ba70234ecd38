import Asolaria.Library.Guard
import Asolaria.Library.TrailingRun

namespace Asolaria.ReflectionRoom
open Library

inductive NoveltyDecision
  | continues (noveltyBps : UInt16)
  | lowNovelty (noveltyBps : UInt16) (run : UInt8)
  | saturated (noveltyBps : UInt16) (run : UInt8)
deriving DecidableEq, Repr

inductive NoveltyError
  | epsilonOutOfRange
  | zeroSaturationLimit
  | similarityOutOfRange
deriving DecidableEq, Repr

structure NoveltyGate where
  epsilonBps : UInt16
  saturationLimit : UInt8
  lowNoveltyRun : UInt8
deriving DecidableEq, Repr

/-- `u8::saturating_add(1)`. -/
def saturatingSucc (n : UInt8) : UInt8 := if n = 255 then 255 else n + 1

namespace NoveltyGate

def new (epsilonBps : UInt16) (saturationLimit : UInt8) : Except NoveltyError NoveltyGate :=
  if epsilonBps > 10000 then .error .epsilonOutOfRange
  else if saturationLimit = 0 then .error .zeroSaturationLimit
  else .ok { epsilonBps, saturationLimit, lowNoveltyRun := 0 }

def observeSimilarity (gate : NoveltyGate) (similarityBps : UInt16) :
    NoveltyGate × Except NoveltyError NoveltyDecision :=
  if similarityBps > 10000 then (gate, .error .similarityOutOfRange)
  else
    let noveltyBps := 10000 - similarityBps
    if noveltyBps < gate.epsilonBps then
      let gate := { gate with lowNoveltyRun := saturatingSucc gate.lowNoveltyRun }
      if gate.lowNoveltyRun ≥ gate.saturationLimit then (gate, .ok (.saturated noveltyBps gate.lowNoveltyRun))
      else (gate, .ok (.lowNovelty noveltyBps gate.lowNoveltyRun))
    else ({ gate with lowNoveltyRun := 0 }, .ok (.continues noveltyBps))

/-- The gate after a sequence of calls. -/
def after (gate : NoveltyGate) (similarities : List UInt16) : NoveltyGate :=
  similarities.foldl (fun gate similarity => (gate.observeSimilarity similarity).1) gate

end NoveltyGate

/-- The observations that are in range. -/
def heard (similarities : List UInt16) : List UInt16 :=
  similarities.filter fun similarity => decide (similarity ≤ 10000)

/-- The observation has low novelty. -/
def Low (epsilonBps similarity : UInt16) : Prop := 10000 - similarity.toNat < epsilonBps.toNat

instance (epsilonBps : UInt16) : DecidablePred (Low epsilonBps) := fun _ => inferInstanceAs (Decidable (_ < _))

/-- The length of the run of low novelty at the end of the calls. -/
def lowRun (epsilonBps : UInt16) (similarities : List UInt16) : Nat := trailingRun (Low epsilonBps) (heard similarities)

variable {epsilonBps x : UInt16} {saturationLimit : UInt8} {gate : NoveltyGate} {xs : List UInt16}

theorem toNat_saturatingSucc (n : UInt8) : (saturatingSucc n).toNat = min 255 (n.toNat + 1) := by
  have small := n.toNat_lt
  rw [saturatingSucc]
  split
  · next full =>
    rw [full]
    rfl
  · next room =>
    have below : n.toNat ≠ 255 := fun last => room (UInt8.toNat_inj.mp last)
    rw [UInt8.toNat_add, show (1 : UInt8).toNat = 1 from rfl]
    omega

/-- A call that is out of range is not heard. -/
theorem heard_append (xs : List UInt16) (x : UInt16) :
    heard (xs ++ [x]) = if x ≤ 10000 then heard xs ++ [x] else heard xs := by
  rw [heard, List.filter_append]
  by_cases inRange : x ≤ 10000
  · rw [if_pos inRange, List.filter_cons_of_pos (by simpa using inRange), List.filter_nil, heard]
  · rw [if_neg inRange, List.filter_cons_of_neg (by simpa using inRange), List.filter_nil, List.append_nil, heard]

theorem lowRun_append (epsilonBps : UInt16) (xs : List UInt16) (x : UInt16) : lowRun epsilonBps (xs ++ [x]) =
    if x ≤ 10000 then if Low epsilonBps x then lowRun epsilonBps xs + 1 else 0 else lowRun epsilonBps xs := by
  rw [lowRun, heard_append]
  split
  · rw [trailingRun_append, lowRun]
  · rw [lowRun]

theorem novelty_lt_iff (inRange : x ≤ 10000) : 10000 - x < epsilonBps ↔ Low epsilonBps x := by
  rw [UInt16.lt_iff_toNat_lt, UInt16.toNat_sub_of_le _ _ inRange]
  exact Iff.rfl

/-- What the gate is after the calls so far. -/
structure Counting (epsilonBps : UInt16) (saturationLimit : UInt8) (xs : List UInt16) (gate : NoveltyGate) : Prop where
  epsilon : gate.epsilonBps = epsilonBps
  limit : gate.saturationLimit = saturationLimit
  run : gate.lowNoveltyRun.toNat = min 255 (lowRun epsilonBps xs)

/-- The answers to a call, for a gate that counts the calls before it. -/
inductive Answer (epsilonBps : UInt16) (saturationLimit : UInt8) (xs : List UInt16) (x : UInt16) :
    Except NoveltyError NoveltyDecision → Prop
  | outOfRange : ¬ x ≤ 10000 → Answer epsilonBps saturationLimit xs x (.error .similarityOutOfRange)
  | continues {noveltyBps : UInt16} : x ≤ 10000 → ¬ Low epsilonBps x → noveltyBps = 10000 - x →
      Answer epsilonBps saturationLimit xs x (.ok (.continues noveltyBps))
  | lowNovelty {noveltyBps : UInt16} {run : UInt8} : x ≤ 10000 → Low epsilonBps x →
      lowRun epsilonBps (xs ++ [x]) < saturationLimit.toNat → noveltyBps = 10000 - x →
      run.toNat = lowRun epsilonBps (xs ++ [x]) → Answer epsilonBps saturationLimit xs x (.ok (.lowNovelty noveltyBps run))
  | saturated {noveltyBps : UInt16} {run : UInt8} : x ≤ 10000 → Low epsilonBps x →
      saturationLimit.toNat ≤ lowRun epsilonBps (xs ++ [x]) → noveltyBps = 10000 - x →
      run.toNat = min 255 (lowRun epsilonBps (xs ++ [x])) →
      Answer epsilonBps saturationLimit xs x (.ok (.saturated noveltyBps run))

theorem Counting.start (made : NoveltyGate.new epsilonBps saturationLimit = .ok gate) :
    Counting epsilonBps saturationLimit [] gate := by
  rw [NoveltyGate.new, guard_ok_iff, guard_ok_iff] at made
  obtain ⟨-, -, same⟩ := made
  cases same
  exact ⟨rfl, rfl, rfl⟩

/-- One call keeps the count and gets its answer. -/
theorem Counting.step (counting : Counting epsilonBps saturationLimit xs gate) (x : UInt16) :
    Counting epsilonBps saturationLimit (xs ++ [x]) (gate.observeSimilarity x).1 ∧
      Answer epsilonBps saturationLimit xs x (gate.observeSimilarity x).2 := by
  obtain ⟨rfl, rfl, run⟩ := counting
  have counted := toNat_saturatingSucc gate.lowNoveltyRun
  have next := lowRun_append gate.epsilonBps xs x
  by_cases inRange : x ≤ 10000
  · rw [if_pos inRange] at next
    rw [NoveltyGate.observeSimilarity, if_neg (UInt16.not_lt.mpr inRange)]
    by_cases low : Low gate.epsilonBps x
    · rw [if_pos low] at next
      have saturating : (saturatingSucc gate.lowNoveltyRun).toNat = min 255 (lowRun gate.epsilonBps (xs ++ [x])) := by
        omega
      have byte := gate.saturationLimit.toNat_lt
      simp only [if_pos ((novelty_lt_iff inRange).mpr low), ge_iff_le, UInt8.le_iff_toNat_le]
      split
      · next reached => exact ⟨⟨rfl, rfl, saturating⟩, .saturated inRange low (by omega) rfl saturating⟩
      · next short => exact ⟨⟨rfl, rfl, saturating⟩, .lowNovelty inRange low (by omega) rfl (by omega)⟩
    · rw [if_neg low] at next
      have high : ¬ 10000 - x < gate.epsilonBps := fun below => low ((novelty_lt_iff inRange).mp below)
      simp only [if_neg high]
      refine ⟨⟨rfl, rfl, ?_⟩, .continues inRange low rfl⟩
      rw [next]
      rfl
  · rw [if_neg inRange] at next
    rw [NoveltyGate.observeSimilarity, if_pos (UInt16.not_le.mp inRange)]
    exact ⟨⟨rfl, rfl, next ▸ run⟩, .outOfRange inRange⟩

theorem Counting.after (made : NoveltyGate.new epsilonBps saturationLimit = .ok gate) (xs : List UInt16) :
    Counting epsilonBps saturationLimit xs (gate.after xs) := by
  induction xs using List.reverseRecOn with
  | nil => exact .start made
  | append_singleton xs x ih =>
    rw [NoveltyGate.after, List.foldl_append]
    exact (ih.step x).1

/-- The run is as long as the limit when the last in-range observations, as
many as the limit says, are all low. -/
theorem limit_le_lowRun_iff {epsilonBps : UInt16} {k : Nat} {xs : List UInt16} : k ≤ lowRun epsilonBps xs ↔
    k ≤ (heard xs).length ∧ ∀ y ∈ (heard xs).drop ((heard xs).length - k), Low epsilonBps y := le_trailingRun_iff

theorem Answer.saturated_iff {reply : Except NoveltyError NoveltyDecision}
    (answer : Answer epsilonBps saturationLimit xs x reply) (positive : saturationLimit.toNat ≠ 0) :
    (∃ noveltyBps run, reply = .ok (.saturated noveltyBps run)) ↔
      x ≤ 10000 ∧ saturationLimit.toNat ≤ lowRun epsilonBps (xs ++ [x]) := by
  have next := lowRun_append epsilonBps xs x
  constructor
  · rintro ⟨noveltyBps, run, rfl⟩
    cases answer with
    | saturated inRange _ long => exact ⟨inRange, long⟩
  · rintro ⟨inRange, long⟩
    rw [if_pos inRange] at next
    cases answer with
    | outOfRange outside => exact absurd inRange outside
    | continues _ high =>
      rw [if_neg high] at next
      omega
    | lowNovelty _ _ short => omega
    | saturated => exact ⟨_, _, rfl⟩

/-- What the gate answers after any calls: it is saturated exactly when the
last in-range observations, as many as the limit says, are all low; the
run that it reports is the true one, up to the largest byte; and a call out
of range changes nothing. -/
theorem novelty_gate_counts (made : NoveltyGate.new epsilonBps saturationLimit = .ok gate) (xs : List UInt16)
    (x : UInt16) :
    ((∃ noveltyBps run, ((gate.after xs).observeSimilarity x).2 = .ok (.saturated noveltyBps run)) ↔
      x ≤ 10000 ∧ saturationLimit.toNat ≤ (heard (xs ++ [x])).length ∧
        ∀ y ∈ (heard (xs ++ [x])).drop ((heard (xs ++ [x])).length - saturationLimit.toNat), Low epsilonBps y) ∧
    (∀ noveltyBps run, ((gate.after xs).observeSimilarity x).2 = .ok (.lowNovelty noveltyBps run) →
      noveltyBps = 10000 - x ∧ run.toNat = lowRun epsilonBps (xs ++ [x])) ∧
    (∀ noveltyBps run, ((gate.after xs).observeSimilarity x).2 = .ok (.saturated noveltyBps run) →
      noveltyBps = 10000 - x ∧ run.toNat = min 255 (lowRun epsilonBps (xs ++ [x]))) ∧
    (¬ x ≤ 10000 → (gate.after xs).observeSimilarity x = (gate.after xs, .error .similarityOutOfRange) ∧
      lowRun epsilonBps (xs ++ [x]) = lowRun epsilonBps xs) := by
  obtain ⟨-, answer⟩ := (Counting.after made xs).step x
  have positive : saturationLimit.toNat ≠ 0 := by
    rw [NoveltyGate.new, guard_ok_iff, guard_ok_iff] at made
    exact fun zero => made.2.1 (UInt8.toNat_inj.mp zero)
  refine ⟨?_, ?_, ?_, ?_⟩
  · rw [← limit_le_lowRun_iff]
    exact answer.saturated_iff positive
  · intro noveltyBps run reply
    rw [reply] at answer
    cases answer with
    | lowNovelty _ _ _ novelty counted => exact ⟨novelty, counted⟩
  · intro noveltyBps run reply
    rw [reply] at answer
    cases answer with
    | saturated _ _ _ novelty counted => exact ⟨novelty, counted⟩
  · intro outside
    have next := lowRun_append epsilonBps xs x
    rw [if_neg outside] at next
    rw [NoveltyGate.observeSimilarity, if_pos (UInt16.not_le.mp outside)]
    exact ⟨rfl, next⟩

/-- The third low observation in a row, with one out of range between them. -/
theorem novelty_gate_counts_three : ∃ noveltyBps run,
    (((NoveltyGate.mk 500 3 0).after [8000, 9600, 20000, 9700]).observeSimilarity 9800).2 =
      .ok (.saturated noveltyBps run) := by
  refine (@novelty_gate_counts 500 3 ⟨500, 3, 0⟩ rfl [8000, 9600, 20000, 9700] 9800).1.mpr ⟨by decide, by decide, ?_⟩
  exact forall_mem_of_all (by decide)

end Asolaria.ReflectionRoom
