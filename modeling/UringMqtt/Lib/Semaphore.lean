import Mathlib.Data.List.Basic

/-! A counting semaphore with a queue of waiters, the way a single-threaded
runtime has it. A permit is free, or granted to a waiter that has not been
polled since, or held outside the semaphore; a permit that comes back goes to
the first waiter if there is one. A closed semaphore grants nothing and gives
nothing out, not even a permit it granted before. -/

namespace UringMqtt.Lib

/-- The state of the semaphore: free permits, the waiters in order, and the
waiters that own a permit they have not yet collected. -/
structure Semaphore (Ticket : Type) where
  available : Nat
  waiting : List Ticket
  granted : List Ticket
  closed : Bool

namespace Semaphore
variable {Ticket : Type}

inductive Poll where
  | acquired
  | closed
  | pending
deriving DecidableEq, Repr

inductive Drop where
  | quiet
  | panicked
deriving DecidableEq, Repr

def new (permits : Nat) : Semaphore Ticket := ⟨permits, [], [], false⟩

def tryAcquire (self : Semaphore Ticket) : Option (Semaphore Ticket) :=
  if self.closed || self.available = 0 then none
  else some { self with available := self.available - 1 }

def addPermit (self : Semaphore Ticket) : Semaphore Ticket :=
  match self.waiting with
  | [] => { self with available := self.available + 1 }
  | first :: rest => { self with waiting := rest, granted := self.granted ++ [first] }

/-- One poll of the ticket's acquire. A permit it collects is held by the caller,
who forgets it or gives it back. -/
def poll [DecidableEq Ticket] (self : Semaphore Ticket) (ticket : Ticket) : Poll × Semaphore Ticket :=
  if self.closed then (.closed, self)
  else if ticket ∈ self.granted then (.acquired, { self with granted := self.granted.erase ticket })
  else if ticket ∈ self.waiting then (.pending, self)
  else if self.available = 0 then (.pending, { self with waiting := self.waiting ++ [ticket] })
  else (.acquired, { self with available := self.available - 1 })

/-- The ticket waits no longer. -/
def forgetWaiter [DecidableEq Ticket] (self : Semaphore Ticket) (ticket : Ticket) : Semaphore Ticket :=
  { self with waiting := self.waiting.erase ticket }

/-- Drops an acquire that is not done. One that owns a permit it never collected panics
while it hands the permit back, and the permit is lost. -/
def dropAcquire [DecidableEq Ticket] (self : Semaphore Ticket) (ticket : Ticket) : Drop × Semaphore Ticket :=
  if ticket ∈ self.granted then (.panicked, { self with granted := self.granted.erase ticket })
  else (.quiet, self.forgetWaiter ticket)

/-- Nobody waits at a closed semaphore: every waiter is woken and will find it closed. -/
def close (self : Semaphore Ticket) : Semaphore Ticket := { self with waiting := [], closed := true }

def unheld (self : Semaphore Ticket) : Nat := self.available + self.granted.length

@[simp] theorem unheld_new (permits : Nat) : (new permits : Semaphore Ticket).unheld = permits := by
  simp [unheld, new]

variable {self after : Semaphore Ticket} {ticket : Ticket}

theorem unheld_tryAcquire (taken : self.tryAcquire = some after) :
    after.unheld + 1 = self.unheld := by
  unfold tryAcquire at taken
  split at taken
  · cases taken
  next free =>
    cases taken
    simp only [Bool.or_eq_true, decide_eq_true_eq, not_or] at free
    simp only [unheld]
    omega

@[simp] theorem unheld_addPermit (self : Semaphore Ticket) : self.addPermit.unheld = self.unheld + 1 := by
  unfold addPermit
  split
  · simp only [unheld]
    omega
  · simp only [unheld, List.length_append, List.length_singleton]
    omega

theorem unheld_poll [DecidableEq Ticket] (self : Semaphore Ticket) (ticket : Ticket) :
    (self.poll ticket).2.unheld + (if (self.poll ticket).1 = .acquired then 1 else 0) = self.unheld := by
  unfold poll
  split
  · simp [unheld]
  · split
    next member =>
      have length := List.length_erase_add_one member
      simp only [unheld, if_true]
      omega
    · split
      · simp [unheld]
      · split
        · simp [unheld]
        next free =>
          simp only [unheld, if_true]
          omega

@[simp] theorem unheld_forgetWaiter [DecidableEq Ticket] (self : Semaphore Ticket) (ticket : Ticket) :
    (self.forgetWaiter ticket).unheld = self.unheld := rfl

/-- The tickets the semaphore knows: those in line and those with a permit to collect. -/
def parties (self : Semaphore Ticket) : List Ticket := self.waiting ++ self.granted

@[simp] theorem parties_new (permits : Nat) : (new permits : Semaphore Ticket).parties = [] := rfl

theorem parties_tryAcquire (taken : self.tryAcquire = some after) :
    after.parties = self.parties := by
  unfold tryAcquire at taken
  split at taken
  · cases taken
  · cases taken
    rfl

theorem parties_addPermit (self : Semaphore Ticket) : self.addPermit.parties.Perm self.parties := by
  unfold addPermit
  split
  · exact .refl _
  next first rest waiting =>
    simp only [parties, waiting, List.cons_append, ← List.append_assoc]
    exact List.perm_append_singleton first _

theorem parties_poll [DecidableEq Ticket] (self : Semaphore Ticket) (ticket : Ticket) (isOpen : self.closed = false) :
    ((self.poll ticket).1 = .acquired ∧ (self.poll ticket).2.parties.Perm (self.parties.erase ticket)) ∨
    ((self.poll ticket).1 = .pending ∧ (self.poll ticket).2.parties.Perm (ticket :: self.parties.erase ticket) ∧
      ticket ∉ (self.poll ticket).2.granted) := by
  unfold poll
  rw [if_neg (by simp [isOpen])]
  split
  next granted =>
    refine .inl ⟨rfl, ?_⟩
    have collected : (ticket :: (self.waiting ++ self.granted.erase ticket)).Perm (self.waiting ++ self.granted) :=
      (List.perm_middle.symm).trans ((List.perm_cons_erase granted).symm.append_left _)
    simpa [parties] using collected.erase ticket
  next notGranted =>
    split
    next waiting =>
      refine .inr ⟨rfl, ?_, notGranted⟩
      exact List.perm_cons_erase (List.mem_append_left _ waiting)
    next notWaiting =>
      have absent : self.parties.erase ticket = self.parties :=
        List.erase_of_not_mem (by simp [parties, notWaiting, notGranted])
      split
      · refine .inr ⟨rfl, ?_, notGranted⟩
        rw [absent]
        simp only [parties, List.append_assoc]
        exact List.perm_middle
      · exact .inl ⟨rfl, by rw [absent]; exact .refl _⟩

theorem dropAcquire_quiet [DecidableEq Ticket] (notGranted : ticket ∉ self.granted) :
    self.dropAcquire ticket = (.quiet, self.forgetWaiter ticket) := if_neg notGranted

theorem parties_forgetWaiter [DecidableEq Ticket] (self : Semaphore Ticket) (ticket : Ticket)
    (notGranted : ticket ∉ self.granted) : (self.forgetWaiter ticket).parties = self.parties.erase ticket := by
  by_cases waiting : ticket ∈ self.waiting
  · simp [parties, forgetWaiter, List.erase_append_left _ waiting]
  · simp [parties, forgetWaiter, List.erase_append_right _ waiting, List.erase_of_not_mem waiting,
      List.erase_of_not_mem notGranted]

/-! Only `close` closes. -/

theorem closed_tryAcquire (taken : self.tryAcquire = some after) :
    after.closed = self.closed := by
  unfold tryAcquire at taken
  split at taken
  · cases taken
  · cases taken
    rfl

@[simp] theorem closed_addPermit (self : Semaphore Ticket) : self.addPermit.closed = self.closed := by
  unfold addPermit
  split <;> rfl

@[simp] theorem closed_poll [DecidableEq Ticket] (self : Semaphore Ticket) (ticket : Ticket) :
    (self.poll ticket).2.closed = self.closed := by
  unfold poll
  repeat' split
  all_goals rfl

@[simp] theorem closed_dropAcquire [DecidableEq Ticket] (self : Semaphore Ticket) (ticket : Ticket) :
    (self.dropAcquire ticket).2.closed = self.closed := by
  unfold dropAcquire
  split <;> rfl

theorem poll_closed [DecidableEq Ticket] (answered : (self.poll ticket).1 = .closed) :
    self.closed = true := by
  unfold poll at answered
  repeat' split at answered
  all_goals simp_all

/-! ### First come, first served -/

/-- Everyone in line, in front those with a permit to collect. -/
def line (self : Semaphore Ticket) : List Ticket := self.granted ++ self.waiting

/-- Nobody waits while a permit is free. -/
def Saturated (self : Semaphore Ticket) : Prop := self.waiting ≠ [] → self.available = 0

theorem saturated_new (permits : Nat) : (new permits : Semaphore Ticket).Saturated := fun waits => absurd rfl waits

theorem line_tryAcquire (taken : self.tryAcquire = some after) : after.line = self.line := by
  unfold tryAcquire at taken
  split at taken
  · cases taken
  · cases taken
    rfl

theorem available_tryAcquire (taken : self.tryAcquire = some after) :
    self.available ≠ 0 := by
  intro none
  simp [tryAcquire, none] at taken

theorem Saturated.tryAcquire (saturated : self.Saturated) (taken : self.tryAcquire = some after) : after.Saturated := by
  have free := available_tryAcquire taken
  unfold Semaphore.tryAcquire at taken
  split at taken
  · cases taken
  · cases taken
    intro waits
    exact absurd (saturated waits) free

@[simp] theorem line_addPermit (self : Semaphore Ticket) : self.addPermit.line = self.line := by
  unfold addPermit
  split
  · rfl
  next waiting => simp [line, waiting]

theorem Saturated.addPermit (saturated : self.Saturated) : self.addPermit.Saturated := by
  unfold Semaphore.addPermit
  split
  next waiting =>
    intro waits
    exact absurd waiting waits
  next waiting =>
    intro _
    exact saturated (by simp [waiting])

section
variable [DecidableEq Ticket] {self : Semaphore Ticket} {ticket : Ticket}

theorem line_forgetWaiter (notGranted : ticket ∉ self.granted) : (self.forgetWaiter ticket).line = self.line.erase ticket := by
  simp [line, forgetWaiter, List.erase_append_right _ notGranted]

theorem Saturated.forgetWaiter (saturated : self.Saturated) : (self.forgetWaiter ticket).Saturated := by
  intro waits
  apply saturated
  intro nobody
  exact waits (by simp [Semaphore.forgetWaiter, nobody])

theorem poll_in_line (isOpen : self.closed = false) (member : ticket ∈ self.line) :
    (ticket ∈ self.granted ∧ (self.poll ticket).1 = .acquired ∧ (self.poll ticket).2.line = self.line.erase ticket) ∨
    (ticket ∉ self.granted ∧ self.poll ticket = (.pending, self)) := by
  by_cases granted : ticket ∈ self.granted
  · simp [poll, granted, isOpen, line, List.erase_append_left]
  · have waiting : ticket ∈ self.waiting := (List.mem_append.mp member).resolve_left granted
    simp [poll, granted, isOpen, waiting]

theorem poll_joins (isOpen : self.closed = false) (absent : ticket ∉ self.line) (none : self.available = 0) :
    (self.poll ticket).1 = .pending ∧ (self.poll ticket).2.line = self.line ++ [ticket] := by
  have granted : ticket ∉ self.granted := fun member => absent (List.mem_append_left _ member)
  have waiting : ticket ∉ self.waiting := fun member => absent (List.mem_append_right _ member)
  simp [poll, granted, isOpen, waiting, none, line]

theorem Saturated.poll (saturated : self.Saturated) (ticket : Ticket) : (self.poll ticket).2.Saturated := by
  unfold Semaphore.poll
  split
  · exact saturated
  · split
    · exact saturated
    · split
      · exact saturated
      · split
        next none =>
          intro _
          exact none
        next free =>
          intro waits
          exact absurd (saturated waits) free

end

end Semaphore
end UringMqtt.Lib
