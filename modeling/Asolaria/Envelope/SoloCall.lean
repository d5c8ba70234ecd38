import Asolaria.Envelope.Callers

namespace Asolaria.Envelope
open Library

/-- Without interference, one caller gets from here to there and returns
these results on the way. -/
def Goes (here : Slot × Location) (returns : List Return) (there : Slot × Location) : Prop :=
  ∃ history, Run (SoloStep CallerStep) here history there ∧ history.filterMap (·.label) = returns

variable {slot after : Slot} {location next : Location} {returned : Option Return} {env given buf : List UInt8}
  {routeHint : UInt32}

theorem Goes.refl (here : Slot × Location) : Goes here [] here := ⟨[], .start, rfl⟩

theorem Goes.trans {here middle there : Slot × Location} {returns later : List Return} (first : Goes here returns middle)
    (rest : Goes middle later there) : Goes here (returns ++ later) there := by
  obtain ⟨history, run, returned⟩ := first
  obtain ⟨history', run', returned'⟩ := rest
  exact ⟨history ++ history', run.append run', by rw [List.filterMap_append, returned, returned']⟩

theorem Goes.step (step : CallerStep slot location returned after next) :
    Goes (slot, location) returned.toList (after, next) := by
  have run : Run (SoloStep CallerStep) (slot, location) ([] ++ [⟨(slot, location), returned, (after, next)⟩])
      (after, next) := .next .start step
  exact ⟨_, run, by cases returned <;> rfl⟩

theorem Goes.quiet (advance : location.advance slot = some (after, next, none)) :
    Goes (slot, location) [] (after, next) := .step (.atomic advance)

theorem Goes.ends {result : Return} (advance : location.advance slot = some (after, next, some result)) :
    Goes (slot, location) [result] (after, next) := .step (.atomic advance)

/-- The publishing loop, byte by byte. -/
theorem Goes.storeBytes (slot : Slot) (routeHint : UInt32) (fits : env.length ≤ envelopeSlotBytes) {n : Nat}
    (range : n ≤ env.length) :
    Goes (slot, .storeBytes env routeHint fits 0) [] (slot.storeBytes env n, .storeBytes env routeHint fits n) := by
  induction n with
  | zero => exact .refl _
  | succ n ih =>
    have more : n < env.length := range
    have stored : Goes (slot.storeBytes env n, .storeBytes env routeHint fits n) []
        (slot.storeBytes env (n + 1), .storeBytes env routeHint fits (n + 1)) :=
      .quiet (by rw [Location.advance, if_pos more]; rfl)
    exact (ih (by omega)).trans stored

/-- The copying loop into the caller's buffer. -/
theorem Goes.loadBytes (slot : Slot) (given : List UInt8) {n i : Nat} (range : i ≤ n) :
    Goes (slot, .loadBytes given given n 0) [] (slot, .loadBytes given (copyPrefix slot.bytes given i) n i) := by
  induction i with
  | zero => exact .refl _
  | succ i ih =>
    have more : i < n := range
    have loaded : Goes (slot, .loadBytes given (copyPrefix slot.bytes given i) n i) []
        (slot, .loadBytes given (copyPrefix slot.bytes given (i + 1)) n (i + 1)) :=
      .quiet (by rw [Location.advance, if_pos more]; rfl)
    exact (ih (by omega)).trans loaded

/-- Undisturbed, the steps of an enqueue are the whole function. -/
theorem enqueue_alone (slot : Slot) (env : List UInt8) (routeHint : UInt32) :
    Goes (slot, .idle) [.enqueue env routeHint (dispatchEnqueueBytes slot env routeHint).1]
      ((dispatchEnqueueBytes slot env routeHint).2, .idle) := by
  have entered : Goes (slot, .idle) _ _ := .step (.enter (.enqueue env routeHint))
  by_cases fits : env.length ≤ envelopeSlotBytes
  · simp only [Call.enter, dif_pos fits] at entered
    by_cases free : slot.state = .empty
    · have claimed : Goes (slot, .claimWrite env routeHint fits) []
          (slot.storeState .writing, .storeBytes env routeHint fits 0) :=
        .quiet (by simp only [Location.advance, Slot.compareExchange, if_pos free])
      have stored := Goes.storeBytes (slot.storeState .writing) routeHint fits (Nat.le_refl _)
      have counted : Goes ((slot.storeState .writing).storeBytes env env.length, .storeBytes env routeHint fits env.length)
          [] (((slot.storeState .writing).storeBytes env env.length).storeLen env.length fits,
            .storeRoute env routeHint) := .quiet (by rw [Location.advance, if_neg (Nat.lt_irrefl _)])
      have published := counted.trans ((Goes.quiet rfl).trans ((Goes.quiet rfl).trans (Goes.ends rfl)))
      simp only [dispatchEnqueueBytes, dif_pos fits, Slot.compareExchange, if_pos free]
      exact ((entered.trans claimed).trans stored).trans published
    · have refused : Goes (slot, .claimWrite env routeHint fits) [.enqueue env routeHint (.error .queueFull)]
          (slot, .idle) := .ends (by simp only [Location.advance, Slot.compareExchange, if_neg free])
      simp only [dispatchEnqueueBytes, dif_pos fits, Slot.compareExchange, if_neg free]
      exact entered.trans refused
  · simp only [Call.enter, dif_neg fits] at entered
    simp only [dispatchEnqueueBytes, dif_neg fits]
    exact entered

theorem dequeueClaimed_alone (slot : Slot) (given : List UInt8) :
    Goes (slot, .loadLen given) [.dequeue given (dequeueClaimed slot given).2.1 (dequeueClaimed slot given).1]
      ((dequeueClaimed slot given).2.2, .idle) := by
  by_cases long : slot.len > given.length
  · have loaded : Goes (slot, .loadLen given) [] (slot, .restore given) :=
      .quiet (by rw [Location.advance, if_pos long])
    simp only [dequeueClaimed, if_pos long]
    exact loaded.trans (Goes.ends rfl)
  · have loaded : Goes (slot, .loadLen given) [] (slot, .loadBytes given given slot.len 0) :=
      .quiet (by rw [Location.advance, if_neg long])
    have copied := Goes.loadBytes slot given (Nat.le_refl slot.len)
    have cleared : Goes (slot, .loadBytes given (copyPrefix slot.bytes given slot.len) slot.len slot.len) []
        (slot.storeLen 0 (Nat.zero_le _), .clearDepth given (copyPrefix slot.bytes given slot.len) slot.len) :=
      .quiet (by rw [Location.advance, if_neg (Nat.lt_irrefl _)])
    simp only [dequeueClaimed, if_neg long]
    exact (loaded.trans copied).trans (cleared.trans ((Goes.quiet rfl).trans (Goes.ends rfl)))

/-- The polls of a dequeue that finds the slot as it is. -/
theorem dequeueLoop_alone (slot : Slot) (given : List UInt8) {budget : Nat} (polls tries : Nat)
    (left : tries + (polls + 1) = budget) :
    Goes (slot, .claimRead given budget tries)
      [.dequeue given (dequeueLoop slot given (polls + 1)).2.1 (dequeueLoop slot given (polls + 1)).1]
      ((dequeueLoop slot given (polls + 1)).2.2, .idle) := by
  by_cases full : slot.state = .full
  · have claimed : Goes (slot, .claimRead given budget tries) [] (slot.storeState .reading, .loadLen given) :=
      .quiet (by simp only [Location.advance, Slot.compareExchange, if_pos full])
    simp only [dequeueLoop, Slot.compareExchange, if_pos full]
    exact claimed.trans (dequeueClaimed_alone (slot.storeState .reading) given)
  · rw [dequeueLoop_not_full full]
    induction polls generalizing tries with
    | zero =>
      have last : tries + 1 ≥ budget := by omega
      exact .ends (by simp only [Location.advance, Slot.compareExchange, if_neg full, if_pos last])
    | succ polls ih =>
      have more : ¬ tries + 1 ≥ budget := by omega
      have polled : Goes (slot, .claimRead given budget tries) [] (slot, .claimRead given budget (tries + 1)) :=
        .quiet (by simp only [Location.advance, Slot.compareExchange, if_neg full, if_neg more])
      exact polled.trans (ih (tries + 1) (by omega))

/-- Undisturbed, the steps of a dequeue are the whole function. -/
theorem dequeue_alone (slot : Slot) (buf : List UInt8) (maxWaitNs : UInt64) :
    Goes (slot, .idle)
      [.dequeue buf (dispatchDequeueBytes slot buf maxWaitNs).2.1 (dispatchDequeueBytes slot buf maxWaitNs).1]
      ((dispatchDequeueBytes slot buf maxWaitNs).2.2, .idle) := by
  have entered : Goes (slot, .idle) _ _ := .step (.enter (.dequeue buf maxWaitNs))
  obtain ⟨polls, budget⟩ := Nat.exists_eq_add_of_lt (spinBudget_pos maxWaitNs)
  have polled := dequeueLoop_alone slot buf polls 0 (show 0 + (polls + 1) = spinBudget maxWaitNs by omega)
  have loop : dispatchDequeueBytes slot buf maxWaitNs = dequeueLoop slot buf (polls + 1) := by
    rw [dispatchDequeueBytes, budget, Nat.zero_add]
  rw [loop]
  exact entered.trans polled

variable {ι : Type} [DecidableEq ι]

/-- In any company, an idle caller can run a whole call undisturbed. -/
theorem Goes.in_company {returns : List Return} (goes : Goes (slot, .idle) returns (after, .idle))
    (locals : ι → Location) (i : ι) (idle : locals i = .idle) :
    ∃ history, Run (InterleavedStep CallerStep) ⟨slot, locals⟩ history ⟨after, locals⟩ ∧
      history.filterMap (·.label.2) = returns := by
  obtain ⟨solo, run, returned⟩ := goes
  rw [← idle] at run
  obtain ⟨history, run, labels⟩ := run.interleaved
  have results : (history.map (·.label)).filterMap (·.2) = solo.filterMap (·.label) := by
    rw [labels, List.filterMap_map]
    rfl
  rw [List.filterMap_map] at results
  rw [Function.update_eq_self] at run
  exact ⟨history, run, results.trans returned⟩

end Asolaria.Envelope
