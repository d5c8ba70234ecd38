import Asolaria.Envelope.BusPhase
import Asolaria.Envelope.SoloCall

namespace Asolaria.Envelope
open Library

variable {ι : Type} {history : BusHistory ι} {bus : Bus ι} {pending : Option (List UInt8)}

@[simp] theorem enqueued_append (history later : BusHistory ι) :
    enqueued (history ++ later) = enqueued history ++ enqueued later := by simp [enqueued, busEvents]

@[simp] theorem dequeued_append (history later : BusHistory ι) :
    dequeued (history ++ later) = dequeued history ++ dequeued later := by simp [dequeued, busEvents]

theorem enqueued_singleton (transition : Transition (Bus ι) (ι × Option Return)) :
    enqueued [transition] = ((transition.label.2.bind Return.event?).bind MailboxEvent.sent?).toList := by
  rw [enqueued, busEvents, filterMap_single]
  cases transition.label.2.bind Return.event? with
  | none => rfl
  | some event => exact filterMap_single _ event

theorem dequeued_singleton (transition : Transition (Bus ι) (ι × Option Return)) :
    dequeued [transition] = ((transition.label.2.bind Return.event?).bind MailboxEvent.received?).toList := by
  rw [dequeued, busEvents, filterMap_single]
  cases transition.label.2.bind Return.event? with
  | none => rfl
  | some event => exact filterMap_single _ event

variable [DecidableEq ι]

/-- Along every interleaving the slot is in one of its phases, and what the
calls returned is the history of a one-place buffer. -/
theorem BusRun.phase (run : BusRun history bus) :
    ∃ pending, BusPhase bus pending ∧ Delivered (enqueued history) (dequeued history) pending := by
  induction run with
  | start => exact ⟨none, .vacant Slot.initial_vacant fun _ => trivial, Delivered.start⟩
  | @next history bus label after _ step ih =>
    obtain ⟨pending, phase, delivered⟩ := ih
    obtain ⟨pending', phase', ends⟩ := phase.step step
    refine ⟨pending', phase', ?_⟩
    rw [enqueued_append, dequeued_append, enqueued_singleton, dequeued_singleton]
    exact delivered.step ends.mailbox

/-- What is pending at a recorded step, and how that step ended. -/
theorem BusRun.returnCase (run : BusRun history bus) {before after : BusHistory ι}
    {transition : Transition (Bus ι) (ι × Option Return)} (recorded : history = before ++ transition :: after) :
    ∃ pending pending', Delivered (enqueued before) (dequeued before) pending ∧
      ReturnCase transition.after.shared pending transition.label.2 pending' := by
  obtain ⟨earlier, step⟩ := run.split recorded
  obtain ⟨pending, phase, delivered⟩ := BusRun.phase earlier
  obtain ⟨pending', _, ends⟩ := phase.step step
  exact ⟨pending, pending', delivered, ends⟩

/-- For every interleaving of any callers: at most one of them is in its
WRITING or READING section; the successful dequeues return the envelopes of
the successful enqueues in order, each at most once and at most one behind;
a successful dequeue returns the oldest one, whole and over nothing but that
prefix of the buffer; and a dequeue whose buffer is too short leaves that
envelope published. -/
theorem BusRun.one_envelope_at_a_time (run : BusRun history bus) :
    (∀ i j, (bus.locals i).InSection → (bus.locals j).InSection → i = j) ∧
    dequeued history <+: enqueued history ∧ (enqueued history).length ≤ (dequeued history).length + 1 ∧
    (∀ before transition after i given buf n, history = before ++ transition :: after →
      transition.label = (i, some (.dequeue given buf (.ok n))) →
      ∃ env, enqueued before = dequeued before ++ [env] ∧ n = env.length ∧ buf = env ++ given.drop n) ∧
    ∀ before transition after i given buf, history = before ++ transition :: after →
      transition.label = (i, some (.dequeue given buf (.error .payloadOversize))) →
      ∃ env, enqueued before = dequeued before ++ [env] ∧ given.length < env.length ∧ buf = given ∧
        transition.after.shared.Holds env := by
  obtain ⟨pending, phase, delivered⟩ := run.phase
  refine ⟨fun i j => phase.exclusive, delivered.received_prefix, ?_, ?_, ?_⟩
  · have count := delivered.length
    have atMost : pending.toList.length ≤ 1 := by cases pending <;> simp
    omega
  · intro before transition after i given buf n recorded returns
    obtain ⟨pending, pending', delivered, ends⟩ := run.returnCase recorded
    rw [returns] at ends
    cases ends with
    | @received env => exact ⟨env, delivered, rfl, rfl⟩
  · intro before transition after i given buf recorded returns
    obtain ⟨pending, pending', delivered, ends⟩ := run.returnCase recorded
    rw [returns] at ends
    cases ends with
    | @short env given long holds => exact ⟨env, delivered, long, rfl, holds⟩

/-- One caller enqueues two bytes and another dequeues them. -/
theorem two_callers_run : ∃ (history : BusHistory Bool) (bus : Bus Bool), BusRun history bus ∧
    history.filterMap (·.label.2) =
      [.enqueue [7, 8] 0 (.ok ()), .dequeue [1, 2, 3] [7, 8, 3] (.ok 2)] := by
  obtain ⟨full, stored, holds⟩ := dispatchEnqueueBytes_free (show Slot.initial.state = .empty from rfl)
    (show [7, 8].length ≤ envelopeSlotBytes by decide) 0
  obtain ⟨free, taken, _⟩ := dispatchDequeueBytes_takes holds (show [7, 8].length ≤ [1, 2, 3].length by decide) 0
  have enqueues := enqueue_alone Slot.initial [7, 8] 0
  have dequeues := dequeue_alone full [1, 2, 3] 0
  rw [stored] at enqueues
  rw [taken] at dequeues
  obtain ⟨sending, run, sends⟩ := enqueues.in_company (fun _ : Bool => .idle) false rfl
  obtain ⟨receiving, rest, receives⟩ := dequeues.in_company (fun _ : Bool => .idle) true rfl
  refine ⟨_, _, run.append rest, ?_⟩
  rw [List.filterMap_append, sends, receives]
  rfl

theorem one_envelope_at_a_time_two_callers : ∃ (history : BusHistory Bool) (bus : Bus Bool), BusRun history bus ∧
    enqueued history = [[7, 8]] ∧ dequeued history = [[7, 8]] ∧
    ∀ i j, (bus.locals i).InSection → (bus.locals j).InSection → i = j := by
  obtain ⟨history, bus, run, returns⟩ := two_callers_run
  have events : busEvents history = [.send [7, 8], .receive [7, 8]] := by
    have factored : busEvents history = (history.filterMap (·.label.2)).filterMap Return.event? := by
      rw [busEvents, List.filterMap_filterMap]
    rw [factored, returns]
    rfl
  refine ⟨history, bus, run, ?_, ?_, run.one_envelope_at_a_time.1⟩
  · rw [enqueued, events]
    rfl
  · rw [dequeued, events]
    rfl

end Asolaria.Envelope
