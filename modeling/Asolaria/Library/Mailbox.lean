import Mathlib.Data.List.Basic

namespace Library

variable {α : Type*}

/-- What can be observed at a buffer with one place. -/
inductive MailboxEvent (α : Type*)
  | send (message : α)
  | receive (message : α)

def MailboxEvent.sent? : MailboxEvent α → Option α
  | .send message => some message
  | .receive _ => none

def MailboxEvent.received? : MailboxEvent α → Option α
  | .send _ => none
  | .receive message => some message

/-- The one-place buffer itself: a send needs the place free, a receive
takes what is there, and every other step leaves it alone. -/
inductive MailboxStep : Option α → Option (MailboxEvent α) → Option α → Prop
  | quiet {pending} : MailboxStep pending none pending
  | send {message} : MailboxStep none (some (.send message)) (some message)
  | receive {message} : MailboxStep (some message) (some (.receive message)) none

/-- The messages sent so far are those received so far, in the same order,
and then the one that is still there. -/
def Delivered (sent received : List α) (pending : Option α) : Prop := sent = received ++ pending.toList

theorem Delivered.start : Delivered ([] : List α) [] none := rfl

theorem Delivered.step {sent received : List α} {pending after : Option α} {event : Option (MailboxEvent α)}
    (delivered : Delivered sent received pending) (step : MailboxStep pending event after) :
    Delivered (sent ++ (event.bind MailboxEvent.sent?).toList) (received ++ (event.bind MailboxEvent.received?).toList)
      after := by
  unfold Delivered at delivered ⊢
  cases step with
  | quiet => simpa [MailboxEvent.sent?, MailboxEvent.received?] using delivered
  | send | receive => simp [delivered, MailboxEvent.sent?, MailboxEvent.received?]

theorem Delivered.received_prefix {sent received : List α} {pending : Option α}
    (delivered : Delivered sent received pending) : received <+: sent := ⟨_, delivered.symm⟩

theorem Delivered.length {sent received : List α} {pending : Option α} (delivered : Delivered sent received pending) :
    sent.length = received.length + pending.toList.length := by
  rw [show sent = received ++ pending.toList from delivered, List.length_append]

end Library
