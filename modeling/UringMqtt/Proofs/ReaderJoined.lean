import UringMqtt.Bench.JoinSet

/-! A connection task that returns has joined its reader on every path: the reader has
stopped, and it did not panic. -/

namespace UringMqtt.Bench
open Lib Run

variable {hdr : Hdr} {allocator : Allocator} {config : GenConfig}

def World.Joined (world : World hdr allocator) : Prop := world.reading = false ∧ world.readerPanic = none

def StaysJoined (before after : World hdr allocator) : Prop := before.Joined → after.Joined

instance : IsPreorder (World hdr allocator) StaysJoined where
  refl _ := id
  trans _ _ _ first second joined := second (first joined)

private theorem readFrame_joined (config : GenConfig) (world : World hdr allocator) (frame : Frame) :
    StaysJoined world (world.readFrame config frame) := by
  intro joined
  unfold World.readFrame
  rw [if_pos (by rw [joined.1]; rfl)]
  exact joined

private theorem observe_joined : Along StaysJoined (observe config : Gen hdr allocator Moment) := by
  intro world joined
  have ticked : World.Joined { world with tick := world.tick + 1 } := joined
  generalize { world with tick := world.tick + 1 } = current at ticked
  induction (world.env world.tick).frames generalizing current with
  | nil => exact ticked
  | cons frame rest ih => exact ih _ (readFrame_joined config current frame ticked)

theorem await_joined : Along StaysJoined (await config : Gen hdr allocator Moment) := by
  refine .bind observe_joined fun moment => ?_
  split
  · exact .bind (.throw _) fun _ => .pure _
  · exact .pure _

abbrev Joins {α : Type} (program : Gen hdr allocator α) (world : World hdr allocator) (post : α → World hdr allocator → Prop) :
    Prop := Ensures program world post fun _ _ => True

variable {α : Type} {world : World hdr allocator} {connId : UInt32}

theorem along_true {program : Gen hdr allocator α} {related : World hdr allocator → World hdr allocator → Prop}
    (ran : Along related program) (world : World hdr allocator) :
    Joins program world fun _ after => related world after :=
  (Ensures.along ran).weaken (fun _ _ => id) fun _ _ _ => trivial

theorem reraise_joins (world : World hdr allocator) (stopped : world.reading = false) :
    Joins reraiseReaderPanic world fun _ after => after.Joined := by
  apply Ensures.get_bind
  cases panic : world.readerPanic with
  | some cause => exact .throw trivial
  | none => exact .pure ⟨stopped, panic⟩

theorem abortReader_joins (world : World hdr allocator) : Joins (abortReader config) world fun _ after => after.Joined := by
  apply Ensures.bind (along_true await_joined world)
  intro _ current _
  apply Ensures.modify_bind
  exact reraise_joins _ rfl

private theorem joinReaderBy_joins (world : World hdr allocator) : Joins (joinReaderBy config) world fun _ after => after.Joined := by
  apply Ensures.bind (along_true await_joined world)
  intro _ current _
  apply Ensures.get_bind
  split
  · exact abortReader_joins current
  next stopped => exact reraise_joins current (Bool.eq_false_of_not_eq_true stopped)

theorem disconnectAndJoin_joins (failure : Option String) {reader : Bool} (before : reader = false → world.Joined) :
    Joins (disconnectAndJoin config failure reader) world fun _ after => after.Joined := by
  have disconnects : Along StaysJoined (writeDisconnect config failure.isSome : Gen hdr allocator _) := by
    unfold writeDisconnect
    split
    · exact .pure _
    · exact .bind await_joined fun _ => .pure _
  apply Ensures.bind (along_true disconnects world)
  intro _ disconnected first
  apply Ensures.bind (along_true await_joined disconnected)
  intro _ shut second
  refine Ensures.bind ?_ fun _ _ joined => .pure joined
  unfold joinHandle
  cases reader with
  | true => exact joinReaderBy_joins shut
  | false => exact .pure (second (first (before rfl)))

theorem countLeaked_joins (leftovers : Bool) (world : World hdr allocator) :
    Joins (countLeaked config leftovers) world fun reader after => reader = false → after.Joined := by
  unfold countLeaked
  split
  · apply Ensures.bind (abortReader_joins world)
    intro _ stopped joined
    apply Ensures.get_bind
    apply Ensures.modify_bind
    exact .pure fun _ => joined
  · refine .pure fun none => ?_
    cases none

theorem joins_any (program : Gen hdr allocator α) (world : World hdr allocator) :
    Joins program world fun _ _ => True := by
  constructor
  cases program world <;> trivial

private theorem qos1DrainAndDisconnect_joins (fuel : Nat) (failure : Option String) (world : World hdr allocator) :
    Joins (qos1DrainAndDisconnect config fuel failure) world fun _ after => after.Joined := by
  apply Ensures.bind (joins_any _ world)
  intro drained current _
  exact Ensures.bind (countLeaked_joins _ current) fun reader _ => disconnectAndJoin_joins failure

private theorem latencyTeardown_joins (fuel : Nat) (result : Except String Unit) (world : World hdr allocator) :
    Joins (latencyTeardown config fuel result) world fun _ after => after.Joined := by
  refine Ensures.bind ?_ fun reader _ => disconnectAndJoin_joins (failureOf result)
  unfold latencyDrain
  split
  · apply Ensures.bind (joins_any _ world)
    exact fun drained current _ => countLeaked_joins _ current
  · refine .pure fun none => ?_
    cases none

private theorem qos0Loop_joins (connId : UInt32) (fuel nextSeq : Nat) (world : World hdr allocator) :
    Joins (qos0Loop config connId fuel nextSeq) world fun failure after => failure ≠ none → after.Joined := by
  induction fuel generalizing nextSeq world with
  | zero => exact .throw trivial
  | succ fuel ih =>
    apply Ensures.bind (joins_any _ world)
    intro now clocked _
    split
    · exact .pure fun some => absurd rfl some
    · apply Ensures.bind (joins_any _ clocked)
      intro encoded current _
      apply Ensures.bind (joins_any _ current)
      intro failure written _
      cases failure with
      | none => exact ih _ written
      | some cause =>
        apply Ensures.modify_bind
        exact Ensures.bind (abortReader_joins _) fun _ _ joined => .pure fun _ => joined

theorem openSession_joins (env : Nat → Moment) :
    Joins (openSession config) (World.spawned hdr allocator env) fun opened after => opened = false → after.Joined :=
  openSession_spawned config env trivial (by rintro ⟨⟩) fun _ _ => ⟨rfl, rfl⟩

private theorem runThroughputConnection_joins (connId : UInt32) (fuel : Nat) (env : Nat → Moment) :
    Joins (runThroughputConnection config connId fuel) (World.spawned hdr allocator env) fun _ after => after.Joined := by
  apply Ensures.bind (openSession_joins env)
  intro opened current unopened
  split
  · split
    · apply Ensures.bind (qos0Loop_joins connId fuel 0 current)
      intro failure finished joined
      cases failure with
      | some cause => exact .pure (joined (Option.some_ne_none cause))
      | none =>
        refine disconnectAndJoin_joins none fun never => ?_
        cases never
    · apply Ensures.modify_bind
      apply Ensures.bind (joins_any _ _)
      exact fun failure finished _ => qos1DrainAndDisconnect_joins fuel failure finished
  next closed => exact .pure (unopened (Bool.eq_false_of_not_eq_true closed))

private theorem runLatencyConnection_joins (connId : UInt32) (rate fuel : Nat) (env : Nat → Moment) :
    Joins (runLatencyConnection config connId rate fuel) (World.spawned hdr allocator env) fun _ after => after.Joined := by
  apply Ensures.bind (openSession_joins env)
  intro opened current unopened
  split
  · apply Ensures.bind (joins_any _ current)
    exact fun result finished _ => latencyTeardown_joins fuel result finished
  next closed => exact .pure (unopened (Bool.eq_false_of_not_eq_true closed))

theorem Ends.joined {env : Nat → Moment} (ends : Ends config connId env (.returned, world)) : world.Joined := by
  obtain ⟨fuel, task, publishes, ran⟩ := ends
  have ensured : Joins task (World.spawned hdr allocator env) fun _ after => after.Joined := by
    unfold runConnection at publishes
    split at publishes <;> cases publishes
    · exact runThroughputConnection_joins connId fuel env
    · exact runLatencyConnection_joins connId _ fuel env
  have known := ensured.ran
  cases result : task (World.spawned hdr allocator env) with
  | ok value after =>
    rw [result] at known ran
    cases ran
    exact known
  | error reason after =>
    rw [result] at ran
    cases reason <;> cases ran

theorem TaskEnds.joined {left : Leavings hdr} (ends : TaskEnds config connId .returned left) :
    left.reading = false ∧ left.readerPanic = none := by
  cases ends with
  | session ends => exact ends.joined
  | cycles => exact ⟨rfl, rfl⟩

end UringMqtt.Bench
