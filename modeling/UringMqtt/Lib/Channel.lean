import Mathlib.Init

/-! An unbounded channel with any number of senders and one receiver. It keeps what
was received, so that everything ever sent can be spoken of. Whether a sender is
left is for its owners to say. -/

namespace UringMqtt.Lib

structure Channel (α : Type) where
  received : List α
  queue : List α

namespace Channel
variable {α : Type}

def empty : Channel α := ⟨[], []⟩

def send (self : Channel α) (item : α) : Channel α := { self with queue := self.queue ++ [item] }

def recv (self : Channel α) : Option (α × Channel α) :=
  match self.queue with
  | [] => none
  | item :: queue => some (item, ⟨self.received ++ [item], queue⟩)

def sent (self : Channel α) : List α := self.received ++ self.queue

@[simp] theorem sent_empty : (empty : Channel α).sent = [] := rfl

@[simp] theorem sent_send (self : Channel α) (item : α) : (self.send item).sent = self.sent ++ [item] := by
  simp [send, sent]

theorem recv_eq_some {self after : Channel α} {item : α} (received : self.recv = some (item, after)) :
    self.queue = item :: after.queue ∧ after.received = self.received ++ [item] ∧ after.sent = self.sent := by
  unfold recv at received
  split at received
  · cases received
  next queued =>
    cases received
    exact ⟨queued, rfl, by simp [sent, queued]⟩

theorem recv_of_queued {self : Channel α} (queued : self.queue ≠ []) : ∃ item after, self.recv = some (item, after) := by
  unfold recv
  split
  next empty => exact absurd empty queued
  · exact ⟨_, _, rfl⟩

end Channel
end UringMqtt.Lib
