import Asolaria.Envelope.Callers

namespace Asolaria.Envelope
open Library

/-- The caller owns neither WRITING nor READING. -/
def Location.Outside : Location → Prop
  | .idle | .claimWrite .. | .claimRead .. => True
  | _ => False

/-- The caller is between a successful claim and the store that gives the
slot up again. -/
def Location.InSection (location : Location) : Prop := ¬ location.Outside

/-- The fields a publication carries, whatever the state flag says. -/
structure Slot.Carries (slot : Slot) (env : List UInt8) : Prop where
  len : slot.len = env.length
  bytes : slot.bytes.take env.length = env

/-- What the owner of WRITING has stored so far. -/
def Location.Writes (slot : Slot) : Location → Prop
  | .storeBytes env _ _ i => i ≤ env.length ∧ slot.bytes.take i = env.take i
  | .storeRoute env _ | .storeDepth env _ => slot.Carries env
  | .publish env _ => slot.Carries env ∧ slot.depth = 1
  | _ => False

/-- What the owner of READING has copied so far of the envelope. -/
def Location.Reads (slot : Slot) (env : List UInt8) : Location → Prop
  | .loadLen _ => slot.Carries env ∧ slot.depth = 1
  | .restore given => (slot.Carries env ∧ slot.depth = 1) ∧ given.length < env.length
  | .loadBytes given buf n i => slot.Carries env ∧ n = env.length ∧ n ≤ given.length ∧ i ≤ n ∧
      buf = env.take i ++ given.drop i
  | .clearDepth given buf n => n = env.length ∧ n ≤ given.length ∧ buf = env ++ given.drop n
  | .release given buf n => (n = env.length ∧ n ≤ given.length ∧ buf = env ++ given.drop n) ∧ slot.depth = 0
  | _ => False

/-- The four states of the slot with their owners, and the envelope that is
published but not yet given back. -/
inductive BusPhase {ι : Type} (bus : Bus ι) : Option (List UInt8) → Prop
  | vacant : bus.shared.Vacant → (∀ i, (bus.locals i).Outside) → BusPhase bus none
  | writing (owner : ι) : bus.shared.state = .writing → (bus.locals owner).Writes bus.shared →
      AllBut owner Location.Outside bus.locals → BusPhase bus none
  | full {env} : bus.shared.Holds env → (∀ i, (bus.locals i).Outside) → BusPhase bus (some env)
  | reading {env} (owner : ι) : bus.shared.state = .reading → (bus.locals owner).Reads bus.shared env →
      AllBut owner Location.Outside bus.locals → BusPhase bus (some env)

/-- The ways a step can end, with what the call returned and what is
pending before and after. -/
inductive ReturnCase (after : Slot) : Option (List UInt8) → Option Return → Option (List UInt8) → Prop
  | running {pending} : ReturnCase after pending none pending
  | refused {pending env routeHint error} :
      ReturnCase after pending (some (.enqueue env routeHint (.error error))) pending
  | sent {env routeHint} : ReturnCase after none (some (.enqueue env routeHint (.ok ()))) (some env)
  | nothing {pending given} : ReturnCase after pending (some (.dequeue given given (.error .queueEmpty))) pending
  | short {env given} : given.length < env.length → after.Holds env →
      ReturnCase after (some env) (some (.dequeue given given (.error .payloadOversize))) (some env)
  | received {env given} : env.length ≤ given.length →
      ReturnCase after (some env) (some (.dequeue given (env ++ given.drop env.length) (.ok env.length))) none

/-- Every step of the bus is a step of the one-place buffer. -/
theorem ReturnCase.mailbox {after : Slot} {pending pending' : Option (List UInt8)} {returned : Option Return}
    (ends : ReturnCase after pending returned pending') :
    MailboxStep pending (returned.bind Return.event?) pending' := by
  cases ends with
  | running | refused | nothing | short => exact .quiet
  | sent => exact .send
  | @received env given room =>
    have taken : (env ++ given.drop env.length).take env.length = env := List.take_left
    simp only [Option.bind_some, Return.event?, taken]
    exact .receive

variable {slot after : Slot} {location next : Location} {returned : Option Return} {env : List UInt8}

/-- A caller outside stays outside and touches nothing, or claims the slot. -/
theorem CallerStep.of_outside (step : CallerStep slot location returned after next) (outside : location.Outside) :
    (after = slot ∧ next.Outside ∧ ∀ pending, ReturnCase after pending returned pending) ∨
    (slot.state = .empty ∧ after = slot.storeState .writing ∧ next.Writes after ∧ returned = none) ∨
    (slot.state = .full ∧ after = slot.storeState .reading ∧ (∃ given, next = .loadLen given) ∧ returned = none) := by
  cases step with
  | enter call =>
    refine .inl ⟨rfl, ?_⟩
    cases call with
    | enqueue env routeHint =>
      by_cases fits : env.length ≤ envelopeSlotBytes
      · simp only [Call.enter, dif_pos fits]
        exact ⟨trivial, fun _ => .running⟩
      · simp only [Call.enter, dif_neg fits]
        exact ⟨trivial, fun _ => .refused⟩
    | dequeue => exact ⟨trivial, fun _ => .running⟩
  | atomic advance =>
    cases location with
    | idle => cases advance
    | claimWrite env routeHint fits =>
      by_cases free : slot.state = .empty
      · simp only [Location.advance, Slot.compareExchange, if_pos free] at advance
        cases advance
        exact .inr (.inl ⟨free, rfl, ⟨Nat.zero_le _, rfl⟩, rfl⟩)
      · simp only [Location.advance, Slot.compareExchange, if_neg free] at advance
        cases advance
        exact .inl ⟨rfl, trivial, fun _ => .refused⟩
    | claimRead given spinBudget tries =>
      by_cases full : slot.state = .full
      · simp only [Location.advance, Slot.compareExchange, if_pos full] at advance
        cases advance
        exact .inr (.inr ⟨full, rfl, ⟨given, rfl⟩, rfl⟩)
      · simp only [Location.advance, Slot.compareExchange, if_neg full] at advance
        split at advance
        · cases advance
          exact .inl ⟨rfl, trivial, fun _ => .nothing⟩
        · cases advance
          exact .inl ⟨rfl, trivial, fun _ => .running⟩
    | storeBytes | storeRoute | storeDepth | publish | loadLen | restore | loadBytes | clearDepth | release =>
      exact absurd outside id

/-- One more byte stored over whatever the array held there before. -/
theorem Slot.take_storeByte {i : Nat} (more : i < env.length) (fits : env.length ≤ envelopeSlotBytes)
    (stored : slot.bytes.take i = env.take i) : (slot.storeByte env i).bytes.take (i + 1) = env.take (i + 1) := by
  have inSlot : i < slot.bytes.length := by
    rw [slot.bytes_length]
    omega
  have overlay : slot.bytes = env.take i ++ slot.bytes.drop i := by rw [← stored, List.take_append_drop]
  have taken : (env.take (i + 1)).length = i + 1 := by
    rw [List.length_take]
    omega
  show (copyCell env slot.bytes i).take (i + 1) = env.take (i + 1)
  rw [overlay, copyCell_overlay more inSlot]
  exact List.take_left' taken

/-- The owner of WRITING goes on storing, or publishes its whole envelope. -/
theorem CallerStep.of_writes (step : CallerStep slot location returned after next) (writes : location.Writes slot)
    (owned : slot.state = .writing) :
    (after.state = .writing ∧ next.Writes after ∧ returned = none) ∨
    ∃ env routeHint, next = .idle ∧ after.Holds env ∧ returned = some (.enqueue env routeHint (.ok ())) := by
  cases step with
  | enter => exact absurd writes id
  | atomic advance =>
    cases location with
    | storeBytes env routeHint fits i =>
      obtain ⟨range, stored⟩ := writes
      by_cases more : i < env.length
      · rw [Location.advance, if_pos more] at advance
        cases advance
        exact .inl ⟨owned, ⟨more, Slot.take_storeByte more fits stored⟩, rfl⟩
      · rw [Location.advance, if_neg more] at advance
        cases advance
        obtain rfl : i = env.length := by omega
        rw [List.take_length] at stored
        exact .inl ⟨owned, ⟨rfl, stored⟩, rfl⟩
    | storeRoute =>
      cases advance
      exact .inl ⟨owned, ⟨writes.len, writes.bytes⟩, rfl⟩
    | storeDepth =>
      cases advance
      exact .inl ⟨owned, ⟨⟨writes.len, writes.bytes⟩, rfl⟩, rfl⟩
    | publish env routeHint =>
      cases advance
      exact .inr ⟨env, routeHint, rfl, ⟨rfl, writes.1.len, writes.1.bytes, writes.2⟩, rfl⟩
    | idle | claimWrite | claimRead | loadLen | restore | loadBytes | clearDepth | release =>
      exact absurd writes id

/-- One more byte of the envelope in the buffer, the rest of it as given. -/
theorem Slot.Carries.copyCell (carries : slot.Carries env) {given : List UInt8} {i : Nat} (more : i < env.length)
    (room : env.length ≤ given.length) :
    copyCell slot.bytes (env.take i ++ given.drop i) i = env.take (i + 1) ++ given.drop (i + 1) := by
  have inSlot : env.length ≤ slot.bytes.length := by
    rw [slot.bytes_length, ← carries.len]
    exact slot.len_le
  have takes : ∀ k, k ≤ env.length → env.take k = slot.bytes.take k := by
    intro k within
    rw [← carries.bytes, List.take_take, Nat.min_eq_left within]
  rw [takes i (by omega), takes (i + 1) (by omega)]
  exact copyCell_overlay (by omega) (by omega)

/-- The owner of READING goes on copying, gives the slot back untouched to a
caller with a bigger buffer, or returns the whole envelope. -/
theorem CallerStep.of_reads (step : CallerStep slot location returned after next) (reads : location.Reads slot env)
    (owned : slot.state = .reading) :
    (after.state = .reading ∧ next.Reads after env ∧ returned = none) ∨
    (∃ given, next = .idle ∧ after.Holds env ∧ given.length < env.length ∧
      returned = some (.dequeue given given (.error .payloadOversize))) ∨
    ∃ given, next = .idle ∧ after.Vacant ∧ env.length ≤ given.length ∧
      returned = some (.dequeue given (env ++ given.drop env.length) (.ok env.length)) := by
  cases step with
  | enter => exact absurd reads id
  | atomic advance =>
    cases location with
    | loadLen given =>
      obtain ⟨carries, depth⟩ := reads
      by_cases long : slot.len > given.length
      · rw [Location.advance, if_pos long] at advance
        cases advance
        rw [carries.len] at long
        exact .inl ⟨owned, ⟨⟨carries, depth⟩, long⟩, rfl⟩
      · rw [Location.advance, if_neg long] at advance
        cases advance
        exact .inl ⟨owned, ⟨carries, carries.len, by omega, Nat.zero_le _, rfl⟩, rfl⟩
    | restore given =>
      obtain ⟨⟨carries, depth⟩, long⟩ := reads
      cases advance
      exact .inr (.inl ⟨given, rfl, ⟨rfl, carries.len, carries.bytes, depth⟩, long, rfl⟩)
    | loadBytes given buf n i =>
      obtain ⟨carries, rfl, room, range, rfl⟩ := reads
      by_cases more : i < env.length
      · rw [Location.advance, if_pos more] at advance
        cases advance
        exact .inl ⟨owned, ⟨carries, rfl, room, more, carries.copyCell more room⟩, rfl⟩
      · rw [Location.advance, if_neg more] at advance
        cases advance
        obtain rfl : i = env.length := by omega
        exact .inl ⟨owned, ⟨rfl, room, by rw [List.take_length]⟩, rfl⟩
    | clearDepth given buf n =>
      cases advance
      exact .inl ⟨owned, ⟨reads, rfl⟩, rfl⟩
    | release given buf n =>
      obtain ⟨⟨rfl, room, rfl⟩, depth⟩ := reads
      cases advance
      exact .inr (.inr ⟨given, rfl, ⟨rfl, depth⟩, room, rfl⟩)
    | idle | claimWrite | claimRead | storeBytes | storeRoute | storeDepth | publish => exact absurd reads id

theorem Location.Writes.inSection (writes : location.Writes slot) : location.InSection := by
  intro outside
  cases location <;> first | exact outside | exact writes

theorem Location.Reads.inSection (reads : location.Reads slot env) : location.InSection := by
  intro outside
  cases location <;> first | exact outside | exact reads

variable {ι : Type} {bus : Bus ι} {pending : Option (List UInt8)}

/-- Whoever is in its section is the one owner of the phase. -/
theorem BusPhase.exclusive (phase : BusPhase bus pending) {i j : ι} (iSection : (bus.locals i).InSection)
    (jSection : (bus.locals j).InSection) : i = j := by
  cases phase with
  | vacant _ outside | full _ outside => exact absurd (outside i) iSection
  | writing owner _ _ others | reading owner _ _ others =>
    rw [others.owner_eq iSection, others.owner_eq jSection]

variable [DecidableEq ι]

/-- A caller that moves outside, the slot untouched, keeps the phase. -/
theorem BusPhase.place_outside (phase : BusPhase bus pending) {i : ι} (outside : (bus.locals i).Outside)
    (stays : location.Outside) : BusPhase (bus.place i bus.shared location) pending := by
  cases phase with
  | vacant vacant all => exact .vacant vacant ((AllBut.of_all all i).update_all stays)
  | full holds all => exact .full holds ((AllBut.of_all all i).update_all stays)
  | writing owner state writes others =>
    have different : owner ≠ i := fun same => writes.inSection (same ▸ outside)
    refine .writing owner state ?_ (others.update_kind i stays)
    simpa only [Threads.place, Function.update_of_ne different] using writes
  | reading owner state reads others =>
    have different : owner ≠ i := fun same => reads.inSection (same ▸ outside)
    refine .reading owner state ?_ (others.update_kind i stays)
    simpa only [Threads.place, Function.update_of_ne different] using reads

theorem BusPhase.claim_write (phase : BusPhase bus pending) {i : ι} (free : bus.shared.state = .empty)
    (writes : location.Writes (bus.shared.storeState .writing)) :
    pending = none ∧ BusPhase (bus.place i (bus.shared.storeState .writing) location) none := by
  cases phase with
  | vacant vacant all =>
    refine ⟨rfl, .writing i rfl ?_ ((AllBut.of_all all i).update_owner location)⟩
    simpa only [Threads.place, Function.update_self] using writes
  | full holds => cases free.symm.trans holds.state
  | writing _ state | reading _ state => cases free.symm.trans state

theorem BusPhase.claim_read (phase : BusPhase bus pending) {i : ι} {given : List UInt8}
    (full : bus.shared.state = .full) :
    BusPhase (bus.place i (bus.shared.storeState .reading) (.loadLen given)) pending := by
  cases phase with
  | vacant vacant => cases full.symm.trans vacant.state
  | full holds all =>
    refine .reading i rfl ?_ ((AllBut.of_all all i).update_owner _)
    simp only [Threads.place, Function.update_self]
    exact ⟨⟨holds.len, holds.bytes⟩, holds.depth⟩
  | writing _ state | reading _ state => cases full.symm.trans state

/-- Every step of every interleaving keeps the phases, and ends in one of
the ways a call can end. -/
theorem BusPhase.step (phase : BusPhase bus pending) {i : ι} {after : Bus ι}
    (step : InterleavedStep CallerStep bus (i, returned) after) :
    ∃ pending', BusPhase after pending' ∧ ReturnCase after.shared pending returned pending' := by
  cases step with
  | act step =>
    by_cases outside : (bus.locals i).Outside
    · rcases step.of_outside outside with ⟨rfl, stays, ends⟩ | ⟨free, rfl, writes, rfl⟩ | ⟨full, rfl, ⟨given, rfl⟩, rfl⟩
      · exact ⟨pending, phase.place_outside outside stays, ends pending⟩
      · obtain ⟨rfl, next⟩ := phase.claim_write free writes
        exact ⟨none, next, .running⟩
      · exact ⟨pending, phase.claim_read full, .running⟩
    · cases phase with
      | vacant _ all | full _ all => exact absurd (all i) outside
      | writing owner state writes others =>
        obtain rfl : i = owner := others.owner_eq outside
        rcases step.of_writes writes state with ⟨state, writes, rfl⟩ | ⟨env, routeHint, rfl, holds, rfl⟩
        · refine ⟨none, .writing i state ?_ (others.update_owner _), .running⟩
          simpa only [Threads.place, Function.update_self] using writes
        · exact ⟨some env, .full holds (others.update_all trivial), .sent⟩
      | @reading env owner state reads others =>
        obtain rfl : i = owner := others.owner_eq outside
        rcases step.of_reads reads state with ⟨state, reads, rfl⟩ | ⟨given, rfl, holds, long, rfl⟩ |
          ⟨given, rfl, vacant, room, rfl⟩
        · refine ⟨some env, .reading i state ?_ (others.update_owner _), .running⟩
          simpa only [Threads.place, Function.update_self] using reads
        · exact ⟨some env, .full holds (others.update_all trivial), .short long holds⟩
        · exact ⟨none, .vacant vacant (others.update_all trivial), .received room⟩

end Asolaria.Envelope
