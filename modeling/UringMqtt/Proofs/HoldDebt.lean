import UringMqtt.Proofs.HeldBacklog

/-! Which packets pay for a hold. The bytes that were buffered when a hold ended are
followed until the decoder has taken them all; a packet behind them should move the idle
anchor again. -/

namespace UringMqtt.Proofs.HoldDebt
open Lib SessionSteps IdleAnchor HeldBacklog

variable {rmqtt : Rmqtt} {sync : LocalSync}

/-- A session with the bytes its last hold is still answerable for. -/
structure Tracked (rmqtt : Rmqtt) (sync : LocalSync) where
  world : World rmqtt sync
  /-- The bytes in the read buffer when the last hold ended that no packet has taken yet. -/
  stale : Nat
  /-- The last turn took the last of them, or held and left none. -/
  ranOut : Bool

namespace Tracked

def entered (world : World rmqtt sync) : Tracked rmqtt sync := ⟨world, 0, false⟩

def held (before after : World rmqtt sync) : Bool := (after.trace.drop before.trace.length).any holdEnds

def next (self : Tracked rmqtt sync) (after : World rmqtt sync) : Tracked rmqtt sync :=
  let taken := self.world.unread.length - after.unread.length
  let stale := if held self.world after then after.readBuffer.length else self.stale - taken
  ⟨after, stale, decide (stale = 0) && (held self.world after || decide (0 < self.stale))⟩

/-- The bytes buffered during a hold did not run out in the middle of a read. -/
def Aligned (self : Tracked rmqtt sync) : Prop := self.ranOut = true → self.world.readBuffer = []

def Step (env : Nat → Moment) (loop : LoopConfig) (before after : Tracked rmqtt sync) : Prop :=
  Turns env loop before.world after.world ∧ after = before.next after.world

def AlignedStep (env : Nat → Moment) (loop : LoopConfig) (before after : Tracked rmqtt sync) : Prop :=
  before.Aligned ∧ Step env loop before after

/-- A packet made of bytes read behind the last hold moves the anchor to its decode,
and the next read has until the idle timeout from there. -/
def Refreshes (env : Nat → Moment) (loop : LoopConfig) (self : Tracked rmqtt sync) : Prop :=
  self.stale = 0 → ∀ packet size fetched,
    awaitPacketOn env (idleLeft env loop.idleTimeout) self.world = .ok (.done (some (.ok (packet, size)))) fetched →
    (worldOf (turn env loop self.world)).lastPacketTime = (env fetched.asked).time ∧
    ∀ after, Turns env loop self.world after →
      awaitPacketOn env (idleLeft env loop.idleTimeout) after =
        awaitPacketOn env (leftUntil env ((env fetched.asked).time + loop.idleTimeout)) after

variable {env : Nat → Moment} {loop : LoopConfig} {before after : Tracked rmqtt sync}

/-- What the debt flag stands for, as long as every read was aligned. -/
def Accountable (self : Tracked rmqtt sync) : Prop :=
  self.world.holdDebt = true → 0 < self.stale ∨ self.ranOut = true

theorem Accountable.step (clock : Monotone fun moment => (env moment).time) (past : Past env before.world)
    (accountable : before.Accountable) (moved : AlignedStep env loop before after) : after.Accountable := by
  obtain ⟨aligned, turned, same⟩ := moved
  obtain ⟨log, trace, debt⟩ := turns_holdDebt clock past turned
  have logged : held before.world after.world = log.any holdEnds := by
    rw [held, trace, List.drop_left]
  intro owes
  rw [debt, Bool.or_eq_true, Bool.and_eq_true, Bool.not_eq_true', List.isEmpty_eq_false_iff] at owes
  rw [same]
  simp only [next, logged, Bool.and_eq_true, Bool.or_eq_true, decide_eq_true_eq]
  -- Either way the bytes are still there, or this turn used them up.
  cases ends : log.any holdEnds with
  | true =>
    simp only [if_true, true_or, and_true]
    exact (Nat.eq_zero_or_pos _).symm
  | false =>
    rw [ends] at owes
    obtain ⟨old, backlog⟩ := owes.resolve_right Bool.false_ne_true
    have pending : 0 < before.stale :=
      (accountable old).resolve_right fun ranOut => backlog (aligned ranOut)
    simp only [Bool.false_eq_true, if_false, false_or]
    omega

private theorem accountable_of_run (clock : Monotone fun moment => (env moment).time) {world : World rmqtt sync}
    (entry : world.lastPacketTime ≤ (env world.asked).time) (clear : world.holdDebt = false)
    (run : Relation.ReflTransGen (AlignedStep env loop) (entered world) after) :
    Past env after.world ∧ after.Accountable := by
  induction run with
  | refl =>
    refine ⟨past_of_entry clock entry, fun owes => ?_⟩
    rw [show (entered world).world.holdDebt = false from clear] at owes
    cases owes
  | tail _ moved ih =>
    obtain ⟨past, accountable⟩ := ih
    exact ⟨past_turns clock past moved.2.1, accountable.step clock past moved⟩

private theorem refreshed_lastPacketTime {world : World rmqtt sync} {readStartsFresh : Bool}
    (moves : world.holdDebt = true → readStartsFresh = true) :
    (refreshed env readStartsFresh world).lastPacketTime = (env world.asked).time := by
  unfold refreshed
  cases debt : world.holdDebt with
  | true => simp [moves debt]
  | false => simp

/-- In a session whose reads are aligned so far, a packet made of bytes read behind
the last hold moves the idle anchor. -/
theorem fresh_packets_move_anchor (env : Nat → Moment) (loop : LoopConfig) {world : World rmqtt sync}
    {tracked : Tracked rmqtt sync} (clock : Monotone fun moment => (env moment).time)
    (entry : world.lastPacketTime ≤ (env world.asked).time) (clear : world.holdDebt = false)
    (run : Relation.ReflTransGen (AlignedStep env loop) (entered world) tracked) (aligned : tracked.Aligned) :
    tracked.Refreshes env loop := by
  obtain ⟨past, accountable⟩ := accountable_of_run clock entry clear run
  intro none_stale packet size fetched awaited
  obtain ⟨log, anchored, -⟩ := awaitPacketOn_reads (along_idleLeft _) awaited
  have fresh : (fetched.log [.decoded packet]).holdDebt = true → tracked.world.readBuffer.isEmpty = true := by
    intro owes
    rcases accountable (anchored.holdDebt.symm.trans owes) with stale | ranOut
    · omega
    · rw [aligned ranOut]
      rfl
  have anchor : (worldOf (turn env loop tracked.world)).lastPacketTime = (env fetched.asked).time :=
    (turn_serves clock past awaited).lastPacketTime.trans (refreshed_lastPacketTime fresh)
  refine ⟨anchor, fun after turned => ?_⟩
  have until_idle := @awaitPacketOn_until _ _ env loop after (past_turns clock past turned)
  rw [turned] at anchor
  rw [until_idle, deadline, show after.lastPacketTime = _ from anchor]

/-! ### A client whose packets straddle its reads -/

section
open Session Fixtures

def client (reads : List Chunk) : World codec .fifo := .accepted _ fullChannel reads

def straddling : List Chunk :=
  [⟨publishQos1T ++ [0xC0], List.cons_ne_nil _ _⟩, ⟨[0x00, 0xC0], List.cons_ne_nil _ _⟩,
    ⟨[0x00, 0xC0], List.cons_ne_nil _ _⟩, ⟨[0x00, 0xC0], List.cons_ne_nil _ _⟩]

def aligning : List Chunk :=
  [⟨publishQos1T ++ [0xC0], List.cons_ne_nil _ _⟩, ⟨[0x00], List.cons_ne_nil _ _⟩, ⟨[0xC0, 0x00], List.cons_ne_nil _ _⟩]

def everyTwoSeconds : Nat → Moment := fun moment =>
  ⟨min 5000 (2000 * ((moment - 8) / 7)), if moment = 29 then .expired else .ready, .done, false, .resumed,
    if moment = 7 then [.recv] else []⟩

private theorem everyTwoSeconds_clock : Monotone fun moment => (everyTwoSeconds moment).time := by
  intro first second order
  simp only [everyTwoSeconds]
  omega

def afterTurns (reads : List Chunk) : Nat → Tracked codec .fifo
  | 0 => entered (client reads)
  | turns + 1 => (afterTurns reads turns).next (worldOf (turn everyTwoSeconds ticking (afterTurns reads turns).world))

theorem afterTurns_step {reads : List Chunk} {turns : Nat}
    (goes : answerOf (turn everyTwoSeconds ticking (afterTurns reads turns).world) = .ok none) :
    Step everyTwoSeconds ticking (afterTurns reads turns) (afterTurns reads (turns + 1)) :=
  ⟨turns_of_answer goes, rfl⟩

/-- The PINGREQ that was split over the hold ends with its read, and the next one moves the anchor. -/
theorem fresh_packets_move_anchor_aligned :
    (afterTurns aligning 2).Refreshes everyTwoSeconds ticking ∧ (afterTurns aligning 3).world.lastPacketTime = 4000 := by
  have held : AlignedStep everyTwoSeconds ticking (afterTurns aligning 0) (afterTurns aligning 1) :=
    ⟨by unfold Aligned; decide +kernel, afterTurns_step (by decide +kernel)⟩
  have pinged : AlignedStep everyTwoSeconds ticking (afterTurns aligning 1) (afterTurns aligning 2) :=
    ⟨by unfold Aligned; decide +kernel, afterTurns_step (by decide +kernel)⟩
  refine ⟨?_, by decide +kernel⟩
  exact fresh_packets_move_anchor everyTwoSeconds ticking everyTwoSeconds_clock (Nat.le_refl 0) rfl
    (Relation.ReflTransGen.refl.tail held |>.tail pinged) (by unfold Aligned; decide +kernel)

/-- The second PINGREQ is made of bytes read behind the hold, yet it leaves the anchor
where it was; 1 s later the session is closed as idle, although the client was heard
every 2 s and may be silent for 5 s. -/
theorem hold_charged_to_fresh_packet :
    ∃ tracked next : Tracked codec .fifo,
      Relation.ReflTransGen (Step everyTwoSeconds ticking) (entered (client straddling)) tracked ∧
      Step everyTwoSeconds ticking tracked next ∧ ¬tracked.Refreshes everyTwoSeconds ticking ∧
      answerOf (turn everyTwoSeconds ticking next.world) = .ok (some .served) ∧
      .readExpired ∈ (worldOf (turn everyTwoSeconds ticking next.world)).trace := by
  have held : Step everyTwoSeconds ticking (afterTurns straddling 0) (afterTurns straddling 1) :=
    afterTurns_step (by decide +kernel)
  have split : Step everyTwoSeconds ticking (afterTurns straddling 1) (afterTurns straddling 2) :=
    afterTurns_step (by decide +kernel)
  have fresh : Step everyTwoSeconds ticking (afterTurns straddling 2) (afterTurns straddling 3) :=
    afterTurns_step (by decide +kernel)
  refine ⟨_, _, Relation.ReflTransGen.refl.tail held |>.tail split, fresh, fun refreshes => ?_, by decide +kernel,
    by decide +kernel⟩
  obtain ⟨packet, size, fetched, awaited⟩ := turn_packet fresh.1
  have moved := (refreshes (by decide +kernel) packet size fetched awaited).1
  have decoded : fetched = worldOf (awaitPacketOn everyTwoSeconds (idleLeft everyTwoSeconds ticking.idleTimeout)
    (afterTurns straddling 2).world) := by
    rw [awaited]
    rfl
  rw [decoded] at moved
  exact absurd moved (by decide +kernel)

end
end Tracked
end UringMqtt.Proofs.HoldDebt
