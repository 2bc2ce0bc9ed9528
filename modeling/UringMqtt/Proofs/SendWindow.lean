import UringMqtt.Lib.Ghost
import UringMqtt.Proofs.AckAccount
import UringMqtt.Proofs.IdSet
import Mathlib.Data.FinEnum
import Mathlib.Data.Set.Card

/-! The send window of a QoS 1 throughput connection. Its task is run beside a trail of
every state it passes: a permit is available, held for a publish without a packet id, or
stands for an id in use, whatever PUBACKs come in between. -/

namespace UringMqtt.Bench
open Lib Run
open Ghost (Erases)

namespace SendWindow

structure Glimpse where
  ids : PacketIds
  permits : Nat
  /-- Permits held for publishes that have no packet id yet. -/
  withoutId : Nat
  offered : Nat
  acked : Nat

/-- The permits the writer holds and the packet ids it has allocated for them; the states
passed. -/
structure Trail where
  held : Nat := 0
  given : Nat := 0
  seen : List Glimpse := []
  refused : Nat := 0
  leaked : Nat := 0

variable {hdr : Hdr}

def Trail.see (self : Trail) (world : World hdr packetIds) : Trail :=
  { self with seen := self.seen ++
      [⟨world.ids, world.permits, self.held - self.given, world.counters.offered, world.counters.acked⟩] }

abbrev Watched (hdr : Hdr) := EStateM Stop (World hdr packetIds × Trail)

variable (config : GenConfig) (connId : UInt32)

/-! ### The connection with its trail -/

/-- The reader is seen before its first frame and behind each one. -/
def observeWatched : Watched hdr Moment :=
  Ghost.noting (fun before _ trail =>
    ((before.env before.tick).frames.scanl (World.readFrame config) { before with tick := before.tick + 1 }).foldl
      Trail.see trail) (observe config)

def monotonicNowNsWatched : Watched hdr Nat := do
  return (← observeWatched config).nowNs

def awaitWatched : Watched hdr Moment := do
  let moment ← observeWatched config
  if moment.aborted then throw .aborted
  return moment

def takePermitWatched : Watched hdr Bool :=
  Ghost.noting (fun before after trail =>
    if before.permits = 0 then trail else Trail.see { trail with held := trail.held + 1 } after) takePermit

def acquirePermitWatched : (fuel : Nat) → Watched hdr Bool
  | 0 => throw .unfinished
  | fuel + 1 => do
    let moment ← awaitWatched config
    if ← takePermitWatched then return true
    else if moment.elapsed then return false
    else acquirePermitWatched fuel

def fillBatchWatched : (room taken : Nat) → Watched hdr Nat
  | 0, taken => return taken
  | room + 1, taken => do
    let _ ← observeWatched config
    if ← takePermitWatched then fillBatchWatched room (taken + 1) else return taken

def takeId : Gen hdr packetIds (Option NonZeroU16) := do
  let world ← get
  set { world with
    ids := (packetIds.allocate world.ids).2
    pending := world.pending ++ (packetIds.allocate world.ids).1.toList }
  return (packetIds.allocate world.ids).1

def allocateWatched : Watched hdr (Option NonZeroU16) := do
  let _ ← observeWatched config
  Ghost.noting (fun before after trail =>
    match (packetIds.allocate before.ids).1 with
    | some _ => Trail.see { trail with given := trail.given + 1 } after
    | none => { trail with refused := trail.refused + 1 }) takeId

def encodeQos1BatchWatched : (permits nextSeq : Nat) → Watched hdr (List Publication × Nat)
  | 0, nextSeq => return ([], nextSeq)
  | permits + 1, nextSeq => do
    match ← allocateWatched config with
    | none => return ([], nextSeq)
    | some id =>
      let now ← monotonicNowNsWatched config
      let stamp : Stamp := ⟨connId, .ofNat nextSeq, .ofNat now⟩
      let (writeBuf, nextSeq) ← encodeQos1BatchWatched permits (saturatingAdd nextSeq 1)
      return (⟨some id, stamp⟩ :: writeBuf, nextSeq)

def returnPermitsWatched (permits : Nat) : Watched hdr Unit :=
  Ghost.noting (fun _ after trail => Trail.see { trail with held := trail.held - permits } after) (returnPermits permits)

/-- The permits of the batch are forgotten before its write begins. -/
def writeBatchWatched (writeBuf : List Publication) : Watched hdr (Option String) := do
  Ghost.noting (fun _ after trail => trail.see after) (addOffered writeBuf.length)
  Ghost.lift (addInFlight (if config.qos = 1 then writeBuf.length else 0))
  Ghost.noting (fun _ after trail =>
    Trail.see { trail with leaked := trail.leaked + (trail.held - trail.given), held := 0, given := 0 } after)
    (handOver writeBuf)
  match publishWriteFailure (← awaitWatched config).written with
  | none =>
    Ghost.lift (noteCompleted writeBuf)
    return none
  | some cause => return some cause

def qos1LoopWatched : (fuel nextSeq : Nat) → Watched hdr (Option String)
  | 0, _ => throw .unfinished
  | fuel + 1, nextSeq => do
    if (← monotonicNowNsWatched config) ≥ config.window.endNs then return none
    if !(← acquirePermitWatched config fuel) then return none
    let permits ← fillBatchWatched config (batchMax - 1) 1
    let (writeBuf, nextSeq) ← encodeQos1BatchWatched config connId permits nextSeq
    if writeBuf.isEmpty then
      returnPermitsWatched permits
      qos1LoopWatched fuel nextSeq
    else
      match ← writeBatchWatched config writeBuf with
      | none => qos1LoopWatched fuel nextSeq
      | some cause => return some cause

def abortReaderWatched : Watched hdr Unit := do
  let _ ← awaitWatched config
  Ghost.lift (modify fun world => { world with reading := false })
  Ghost.lift reraiseReaderPanic

def joinReaderByWatched : Watched hdr Unit := do
  let _ ← awaitWatched config
  if (← Ghost.look).reading then abortReaderWatched config else Ghost.lift reraiseReaderPanic

def drainWatched : (fuel : Nat) → Watched hdr Bool
  | 0 => throw .unfinished
  | fuel + 1 => do
    let moment ← awaitWatched config
    if (← Ghost.look).inFlight = 0 then return true
    if moment.elapsed then return false
    drainWatched fuel

def countLeakedWatched (leftovers : Bool) : Watched hdr Bool :=
  if leftovers then do
    abortReaderWatched config
    Ghost.lift (addStalled (← Ghost.look).inFlight.toNat)
    return false
  else pure true

def writeDisconnectWatched (skipped : Bool) : Watched hdr (Option Written) :=
  if skipped then pure none
  else do
    return some (← awaitWatched config).written

def joinHandleWatched (reader : Bool) : Watched hdr Unit :=
  if reader then joinReaderByWatched config else pure ()

def disconnectAndJoinWatched (failure : Option String) (reader : Bool) : Watched hdr (Except String Unit) := do
  let disconnect ← writeDisconnectWatched config failure.isSome
  let shutdown := (← awaitWatched config).written
  joinHandleWatched config reader
  return sessionResult failure (teardownFailure disconnect shutdown)

def qos1DrainAndDisconnectWatched (fuel : Nat) (writeFailure : Option String) : Watched hdr (Except String Unit) := do
  let drained ← drainWatched config fuel
  let reader ← countLeakedWatched config (!drained || writeFailure.isSome)
  disconnectAndJoinWatched config writeFailure reader

def runQos1ThroughputWatched (fuel : Nat) : Watched hdr (Except String Unit) := do
  Ghost.noting (fun _ after trail => trail.see after)
    (modify fun world => { world with permits := config.qos1Window.toNat })
  let writeFailure ← qos1LoopWatched config connId fuel 0
  qos1DrainAndDisconnectWatched config fuel writeFailure

def runThroughputConnectionWatched (fuel : Nat) : Watched hdr (Except String Unit) := do
  if ← Ghost.lift (openSession config) then
    if config.qos = 0 then Ghost.lift (runQos0Throughput config connId fuel)
    else runQos1ThroughputWatched config connId fuel
  else return .ok ()

/-! ### Without the trail -/

theorem observeWatched_erases : Erases (observeWatched config) (observe config : Gen hdr packetIds Moment) := .noting _ _

theorem monotonicNowNsWatched_erases :
    Erases (monotonicNowNsWatched config) (monotonicNowNs config : Gen hdr packetIds Nat) :=
  .bind (observeWatched_erases config) fun _ => .pure _

theorem awaitWatched_erases : Erases (awaitWatched config) (await config : Gen hdr packetIds Moment) :=
  .bind (observeWatched_erases config) fun _ => .ite (.bind (.throw _) fun _ => .pure _) (.pure _)

theorem takePermitWatched_erases : Erases takePermitWatched (takePermit : Gen hdr packetIds Bool) := .noting _ _

private theorem acquirePermitWatched_erases (fuel : Nat) :
    Erases (acquirePermitWatched config fuel) (acquirePermit config fuel : Gen hdr packetIds Bool) := by
  induction fuel with
  | zero => exact .throw _
  | succ fuel again =>
    refine .bind (awaitWatched_erases config) fun moment => .bind takePermitWatched_erases fun taken => ?_
    exact .ite (.pure _) (.ite (.pure _) again)

private theorem fillBatchWatched_erases (room taken : Nat) :
    Erases (fillBatchWatched config room taken) (fillBatch config room taken : Gen hdr packetIds Nat) := by
  induction room generalizing taken with
  | zero => exact .pure _
  | succ room again =>
    refine .bind (observeWatched_erases config) fun _ => .bind takePermitWatched_erases fun more => ?_
    exact .ite (again _) (.pure _)

private theorem encodeQos1BatchWatched_erases (permits nextSeq : Nat) :
    Erases (encodeQos1BatchWatched config connId permits nextSeq)
      (encodeQos1Batch config connId permits nextSeq : Gen hdr packetIds _) := by
  have allocates : Erases (allocateWatched config) (allocate config : Gen hdr packetIds _) :=
    .bind (observeWatched_erases config) fun _ => .noting _ _
  induction permits generalizing nextSeq with
  | zero => exact .pure _
  | succ permits again =>
    refine .bind allocates fun id => ?_
    cases id with
    | none => exact .pure _
    | some id => exact .bind (monotonicNowNsWatched_erases config) fun _ => .bind (again _) fun _ => .pure _

private theorem writeBatchWatched_erases (writeBuf : List Publication) :
    Erases (writeBatchWatched config writeBuf) (writeBatch config writeBuf : Gen hdr packetIds _) := by
  refine .bind (.noting _ _) fun _ => .bind (.lift _) fun _ => .bind (.noting _ _) fun _ => ?_
  refine .bind (awaitWatched_erases config) fun moment => ?_
  cases publishWriteFailure moment.written with
  | none => exact .bind (.lift _) fun _ => .pure _
  | some cause => exact .pure _

private theorem qos1LoopWatched_erases (fuel nextSeq : Nat) :
    Erases (qos1LoopWatched config connId fuel nextSeq) (qos1Loop config connId fuel nextSeq : Gen hdr packetIds _) := by
  induction fuel generalizing nextSeq with
  | zero => exact .throw _
  | succ fuel again =>
    refine .bind (monotonicNowNsWatched_erases config) fun now => .ite (.pure _) ?_
    refine .bind (acquirePermitWatched_erases config fuel) fun taken => .ite (.pure _) ?_
    refine .bind (fillBatchWatched_erases config _ _) fun permits => ?_
    refine .bind (encodeQos1BatchWatched_erases config connId permits nextSeq) fun ⟨writeBuf, nextSeq⟩ => ?_
    refine .ite (.bind (.noting _ _) fun _ => again _) (.bind (writeBatchWatched_erases config writeBuf) fun failure => ?_)
    cases failure with
    | none => exact again _
    | some cause => exact .pure _

theorem abortReaderWatched_erases : Erases (abortReaderWatched config) (abortReader config : Gen hdr packetIds Unit) :=
  .bind (awaitWatched_erases config) fun _ => .bind (.lift _) fun _ => .lift _

private theorem drainWatched_erases (fuel : Nat) : Erases (drainWatched config fuel) (drain config fuel : Gen hdr packetIds Bool) := by
  induction fuel with
  | zero => exact .throw _
  | succ fuel again =>
    refine .bind (awaitWatched_erases config) fun moment => .bind .look fun world => ?_
    exact .ite (.pure _) (.ite (.pure _) again)

private theorem countLeakedWatched_erases (leftovers : Bool) :
    Erases (countLeakedWatched config leftovers) (countLeaked config leftovers : Gen hdr packetIds Bool) := by
  refine .ite (.bind (abortReaderWatched_erases config) fun _ => ?_) (.pure _)
  exact .bind .look fun _ => .bind (.lift _) fun _ => .pure _

private theorem disconnectAndJoinWatched_erases (failure : Option String) (reader : Bool) :
    Erases (disconnectAndJoinWatched config failure reader) (disconnectAndJoin config failure reader : Gen hdr packetIds _) := by
  have joins : Erases (joinReaderByWatched config) (joinReaderBy config : Gen hdr packetIds Unit) :=
    .bind (awaitWatched_erases config) fun _ => .bind .look fun _ => .ite (abortReaderWatched_erases config) (.lift _)
  refine .bind (.ite (.pure _) (.bind (awaitWatched_erases config) fun _ => .pure _)) fun _ => ?_
  exact .bind (awaitWatched_erases config) fun _ => .bind (.ite joins (.pure _)) fun _ => .pure _

private theorem runThroughputConnectionWatched_erases (fuel : Nat) :
    Erases (runThroughputConnectionWatched config connId fuel)
      (runThroughputConnection config connId fuel : Gen hdr packetIds _) := by
  refine .bind (.lift _) fun opened => .ite (.ite (.lift _) ?_) (.pure _)
  refine .bind (.noting _ _) fun _ => .bind (qos1LoopWatched_erases config connId fuel 0) fun failure => ?_
  refine .bind (drainWatched_erases config fuel) fun drained => .bind (countLeakedWatched_erases config _) fun reader => ?_
  exact disconnectAndJoinWatched_erases config failure reader

/-! ### How many ids are in use -/

noncomputable def inUse (ids : PacketIds) : Nat := ids.used.ncard

private theorem inUse_new : inUse .new = 0 := by rw [inUse, PacketIds.used_new, Set.ncard_empty]

private theorem inUse_allocate {ids : PacketIds} {id : NonZeroU16} (chosen : ids.allocate.1 = some id) :
    inUse ids.allocate.2 = inUse ids + 1 := by
  rcases ids.allocate_cases with ⟨none, _⟩ | ⟨idx, handed, after, allocated, some⟩
  · rw [none] at chosen
    cases chosen
  · obtain ⟨free, inserted⟩ := PacketIds.allocateAt_used allocated
    rw [some, inUse, inserted, Set.ncard_insert_of_notMem free, inUse]

private theorem inUse_full {ids : PacketIds} (refused : ids.allocate.1 = none) : inUse ids = 65535 := by
  rcases ids.allocate_cases with ⟨_, every⟩ | ⟨idx, handed, after, allocated, some⟩
  · have nonzero : ids.used = {(0 : UInt16)}ᶜ := Set.ext fun id => ⟨fun member => member.1, every id⟩
    have size : Nat.card UInt16 = 2 ^ 16 := by
      rw [Nat.card_eq_fintype_card, ← FinEnum.card_eq_fintypeCard, FinEnum.card_UInt16]
    rw [inUse, nonzero, Set.ncard_compl, Set.ncard_singleton, size]
    rfl
  · rw [some] at refused
    cases refused

private theorem inUse_release (ids : PacketIds) (id : UInt16) :
    inUse (ids.release id).2 + (ids.release id).1.toNat = inUse ids := by
  obtain ⟨found, erased⟩ := ids.release_used id
  rw [inUse, erased]
  cases answer : (ids.release id).1 with
  | true => exact Set.ncard_sdiff_singleton_add_one (found.mp answer)
  | false =>
    have absent : id ∉ ids.used := fun member => Bool.false_ne_true (answer.symm.trans (found.mpr member))
    rw [Set.sdiff_singleton_eq_self absent]
    rfl

/-! ### The invariant -/

/-- In this state the window is whole, and no more publishes are unacknowledged. -/
def Glimpse.Whole (window : Nat) (self : Glimpse) : Prop :=
  inUse self.ids + self.permits + self.withoutId = window ∧ self.offered ≤ self.acked + window

/-- Every state passed was whole, every publish got its id, and every permit that was
forgotten has one. -/
structure Kept (window : Nat) (trail : Trail) : Prop where
  seen : ∀ glimpse ∈ trail.seen, glimpse.Whole window
  unrefused : trail.refused = 0
  unleaked : trail.leaked = 0

/-- The writer holds so many permits and has an id for so many of them. -/
structure Holding (window held given : Nat) (state : World hdr packetIds × Trail) : Prop where
  holds : state.2.held = held
  gives : state.2.given = given
  within : given ≤ held
  whole : inUse state.1.ids + state.1.permits + (held - given) = window
  offers : state.1.counters.offered + given = state.1.counters.acked + inUse state.1.ids
  kept : Kept window state.2

section
variable {config connId} {window held given : Nat} {world : World hdr packetIds} {trail : Trail}

theorem Kept.see (kept : Kept window trail) (whole : Glimpse.Whole window
      ⟨world.ids, world.permits, trail.held - trail.given, world.counters.offered, world.counters.acked⟩) : Kept window (trail.see world) := by
  refine ⟨fun glimpse member => ?_, kept.unrefused, kept.unleaked⟩
  rcases List.mem_append.mp member with earlier | last
  · exact kept.seen glimpse earlier
  · rw [List.mem_singleton.mp last]
    exact whole

theorem Holding.see (holding : Holding window held given (world, trail)) : Holding window held given (world, trail.see world) := by
  obtain ⟨sameHeld, sameGiven, within, whole, offers, kept⟩ := holding
  dsimp only at sameHeld sameGiven whole offers
  refine ⟨sameHeld, sameGiven, within, whole, offers, kept.see ⟨?_, ?_⟩⟩
  · rw [sameHeld, sameGiven]
    exact whole
  · dsimp only
    omega

/-- Step: one frame of the reader. A PUBACK that is accepted turns an id into a permit. -/
private theorem Holding.readFrame (reliable : config.qos = 1) (closed : config.mode = .throughput)
    (holding : Holding window held given (world, trail)) (frame : Frame) :
    Holding window held given (world.readFrame config frame, trail) := by
  obtain ⟨sameHeld, sameGiven, within, whole, offers, kept⟩ := holding
  dsimp only at sameHeld sameGiven whole offers
  simp only [World.readFrame, reliable, closed, if_true]
  split
  · exact ⟨sameHeld, sameGiven, within, whole, offers, kept⟩
  · cases frame with
    | other | undecodable | readFailed | endOfStream | panics => exact ⟨sameHeld, sameGiven, within, whole, offers, kept⟩
    | puback packetId =>
      have count := inUse_release world.ids packetId.get
      cases released : world.ids.release packetId.get with
      | mk accepted ids =>
        have answer : packetIds.release world.ids packetId.get = (accepted, ids) := released
        rw [released] at count
        dsimp only at count
        cases accepted with
        | true =>
          rw [Bool.toNat_true] at count
          simp only [answer]
          refine ⟨sameHeld, sameGiven, within, ?_, ?_, kept⟩
          · change inUse ids + (world.permits + 1) + (held - given) = window
            omega
          · change world.counters.offered + given = world.counters.acked + 1 + inUse ids
            omega
        | false =>
          rw [Bool.toNat_false] at count
          simp only [answer]
          refine ⟨sameHeld, sameGiven, within, ?_, ?_, kept⟩
          · change inUse ids + world.permits + (held - given) = window
            omega
          · change world.counters.offered + given = world.counters.acked + inUse ids
            omega

/-- Run: any frames, seen one by one. -/
theorem Holding.frames (reliable : config.qos = 1) (closed : config.mode = .throughput) (frames : List Frame)
    (holding : Holding window held given (world, trail)) :
    Holding window held given
      (frames.foldl (World.readFrame config) world, (frames.scanl (World.readFrame config) world).foldl Trail.see trail) := by
  induction frames generalizing world trail with
  | nil => exact holding.see
  | cons frame rest again =>
    rw [List.scanl_cons, List.foldl_cons]
    exact again (holding.see.readFrame reliable closed frame)

/-! ### The parts of the connection -/

variable (reliable : config.qos = 1) (closed : config.mode = .throughput) {state : World hdr packetIds × Trail}
include reliable closed

theorem observeWatched_holds (holding : Holding window held given state) :
    Ensures (observeWatched config) state (fun _ after => Holding window held given after) fun _ _ => False := by
  have ticked : Holding window held given ({ state.1 with tick := state.1.tick + 1 }, state.2) := { holding with }
  exact Ghost.ensures_noting ⟨ticked.frames reliable closed _⟩

theorem monotonicNowNsWatched_holds (holding : Holding window held given state) :
    Ensures (monotonicNowNsWatched config) state (fun _ after => Holding window held given after) fun _ _ => False :=
  .bind (observeWatched_holds reliable closed holding) fun _ _ holding => .pure holding

theorem awaitWatched_holds : Maintains (Holding window held given) (awaitWatched config : Watched hdr Moment) := by
  refine .bind (fun state holding => ?_) fun moment => .ite (.bind (.throw _) fun _ => .pure _) (.pure _)
  exact (observeWatched_holds reliable closed holding).weaken (fun _ _ => id) fun _ _ => False.elim

omit reliable closed in
theorem takePermitWatched_holds (holding : Holding window held 0 state) :
    Ensures takePermitWatched state (fun taken after => Holding window (held + taken.toNat) 0 after) fun _ _ => False := by
  obtain ⟨world, trail⟩ := state
  refine Ghost.ensures_noting (.get_bind ?_)
  split
  · exact .pure holding
  next some =>
    refine .modify_bind (.pure ?_)
    obtain ⟨holds, gives, within, whole, offers, kept⟩ := holding
    dsimp only at holds gives whole offers
    have taken : Holding window (held + 1) 0
        ({ world with permits := world.permits - 1 }, { trail with held := trail.held + 1 }) :=
      ⟨by dsimp only; omega, gives, Nat.zero_le _, by dsimp only; omega, offers, ⟨kept.seen, kept.unrefused, kept.unleaked⟩⟩
    exact taken.see

private theorem acquirePermitWatched_holds (fuel : Nat) (holding : Holding window 0 0 state) :
    Ensures (acquirePermitWatched config fuel) state (fun taken after => Holding window taken.toNat 0 after)
      fun _ after => Kept window after.2 := by
  induction fuel generalizing state with
  | zero => exact .throw holding.kept
  | succ fuel again =>
    have awaits := awaitWatched_holds reliable closed _ holding
    refine awaits.seq (fun _ _ => Holding.kept) fun moment after holding => ?_
    refine (takePermitWatched_holds holding).seq (fun _ _ => False.elim) fun taken after holding => ?_
    rw [Nat.zero_add] at holding
    cases taken with
    | true => exact .pure holding
    | false =>
      simp only [Bool.false_eq_true, if_false]
      split
      · exact .pure holding
      · exact again holding

private theorem fillBatchWatched_holds (room taken : Nat) (holding : Holding window taken 0 state) :
    Ensures (fillBatchWatched config room taken) state (fun permits after => Holding window permits 0 after ∧ taken ≤ permits)
      fun _ _ => False := by
  induction room generalizing state taken with
  | zero => exact .pure ⟨holding, Nat.le_refl _⟩
  | succ room again =>
    refine .bind (observeWatched_holds reliable closed holding) fun _ after holding => ?_
    refine .bind (takePermitWatched_holds holding) fun more after holding => ?_
    cases more with
    | true => exact (again _ holding).weaken (fun _ _ ended => ⟨ended.1, Nat.le_of_succ_le ended.2⟩) fun _ _ => id
    | false => exact .pure ⟨holding, Nat.le_refl _⟩

private theorem allocateWatched_holds (few : window ≤ 65535) (holding : Holding window held given state) (waiting : given < held) :
    Ensures (allocateWatched config) state (fun id after => id ≠ none ∧ Holding window held (given + 1) after)
      fun _ _ => False := by
  refine .bind (observeWatched_holds reliable closed holding) fun _ after holding => ?_
  obtain ⟨world, trail⟩ := after
  obtain ⟨holds, gives, within, whole, offers, kept⟩ := holding
  dsimp only at holds gives whole offers
  refine Ghost.ensures_noting (.get_bind ?_)
  cases chosen : (packetIds.allocate world.ids).1 with
  | none =>
    have full := inUse_full chosen
    omega
  | some id =>
    have count : inUse (packetIds.allocate world.ids).2 = inUse world.ids + 1 := inUse_allocate chosen
    refine ⟨Option.some_ne_none id, ?_⟩
    have taken : Holding window held (given + 1)
        ({ world with ids := (packetIds.allocate world.ids).2, pending := world.pending ++ [id] },
          { trail with given := trail.given + 1 }) := by
      refine ⟨holds, by dsimp only; omega, waiting, ?_, ?_, ⟨kept.seen, kept.unrefused, kept.unleaked⟩⟩
      · dsimp only
        omega
      · dsimp only
        omega
    exact taken.see

private theorem encodeQos1BatchWatched_holds (few : window ≤ 65535) (permits nextSeq : Nat)
    (holding : Holding window held given state) (left : given + permits = held) :
    Ensures (encodeQos1BatchWatched config connId permits nextSeq) state
      (fun encoded after => encoded.1.length = permits ∧ Holding window held held after) fun _ _ => False := by
  induction permits generalizing state given nextSeq with
  | zero =>
    obtain rfl : given = held := left
    exact .pure ⟨rfl, holding⟩
  | succ permits again =>
    refine .bind (allocateWatched_holds reliable closed few holding (by omega)) fun id after ⟨found, holding⟩ => ?_
    cases id with
    | none => exact absurd rfl found
    | some id =>
      refine .bind (monotonicNowNsWatched_holds reliable closed holding) fun now after holding => ?_
      refine .bind (again _ holding (by omega)) fun ⟨writeBuf, nextSeq⟩ after ⟨size, holding⟩ => ?_
      exact .pure ⟨congrArg (· + 1) size, holding⟩

private theorem writeBatchWatched_holds {writeBuf : List Publication} (holding : Holding window held held state)
    (size : writeBuf.length = held) :
    Ensures (writeBatchWatched config writeBuf) state (fun _ after => Holding window 0 0 after)
      fun _ after => Kept window after.2 := by
  obtain ⟨world, trail⟩ := state
  obtain ⟨holds, gives, within, whole, offers, kept⟩ := holding
  dsimp only at holds gives whole offers
  let offered : World hdr packetIds := { world with counters.offered := world.counters.offered + writeBuf.length }
  have passed : Kept window (trail.see offered) := by
    refine kept.see ⟨?_, ?_⟩
    · rw [holds, gives]
      exact whole
    · change world.counters.offered + writeBuf.length ≤ world.counters.acked + window
      omega
  refine Ghost.ensures_noting_step rfl (Ghost.ensures_step rfl (Ghost.ensures_noting_step rfl ?_))
  have forgotten (after : World hdr packetIds) (ids : after.ids = world.ids) (permits : after.permits = world.permits)
      (counters : after.counters = offered.counters) :
      Holding window 0 0 (after, Trail.see { trail.see offered with
        leaked := (trail.see offered).leaked + ((trail.see offered).held - (trail.see offered).given)
        held := 0, given := 0 } after) := by
    refine Holding.see ⟨rfl, rfl, Nat.le_refl _, ?_, ?_, ⟨passed.seen, passed.unrefused, ?_⟩⟩
    · dsimp only
      rw [ids, permits]
      omega
    · dsimp only
      rw [ids, counters]
      change world.counters.offered + writeBuf.length + 0 = world.counters.acked + inUse world.ids
      omega
    · change trail.leaked + (trail.held - trail.given) = 0
      rw [kept.unleaked, holds, gives, Nat.sub_self]
  refine .bind (Ensures.weaken (awaitWatched_holds reliable closed _ (forgotten _ ?_ ?_ ?_)) (fun _ _ => id)
    fun _ _ => Holding.kept) fun moment after holding => ?_
  iterate 3 rfl
  cases publishWriteFailure moment.written with
  | none => exact Ghost.ensures_step rfl (.pure { holding with })
  | some cause => exact .pure holding

private theorem qos1LoopWatched_holds (few : window ≤ 65535) (fuel nextSeq : Nat) (holding : Holding window 0 0 state) :
    Ensures (qos1LoopWatched config connId fuel nextSeq) state (fun _ after => Holding window 0 0 after)
      fun _ after => Kept window after.2 := by
  induction fuel generalizing state nextSeq with
  | zero => exact .throw holding.kept
  | succ fuel again =>
    have reads := monotonicNowNsWatched_holds reliable closed holding
    refine reads.seq (fun _ _ => False.elim) fun now after holding => ?_
    split
    · exact .pure holding
    refine .bind (acquirePermitWatched_holds reliable closed fuel holding) fun taken after holding => ?_
    cases taken with
    | false => exact .pure holding
    | true =>
      have fills := fillBatchWatched_holds reliable closed (batchMax - 1) 1 holding
      refine fills.seq (fun _ _ => False.elim) fun permits after ⟨holding, one⟩ => ?_
      have encodes := @encodeQos1BatchWatched_holds _ _ connId _ _ _ reliable closed _ few permits nextSeq holding
        (Nat.zero_add _)
      refine encodes.seq (fun _ _ => False.elim) fun ⟨writeBuf, nextSeq⟩ after ⟨size, holding⟩ => ?_
      -- Every permit got its id, so the batch is not empty.
      have nonempty : ¬writeBuf.isEmpty = true := by
        rw [List.isEmpty_iff_length_eq_zero]
        dsimp only at size
        omega
      simp only [nonempty]
      refine .bind (writeBatchWatched_holds reliable closed holding size) fun failure after holding => ?_
      cases failure with
      | none => exact again _ holding
      | some cause => exact .pure holding

omit reliable closed in
theorem reraise_holds : Maintains (Holding window 0 0) (Ghost.lift reraiseReaderPanic : Watched hdr Unit) := by
  rintro ⟨world, trail⟩ holding
  refine Ghost.ensures_lift (.get_bind ?_)
  cases world.readerPanic with
  | some cause => exact .throw holding
  | none => exact .pure holding

theorem abortReaderWatched_holds : Maintains (Holding window 0 0) (abortReaderWatched config : Watched hdr Unit) := by
  refine .bind (awaitWatched_holds reliable closed) fun _ => .bind ?_ fun _ => reraise_holds
  exact fun state holding => Ghost.ensures_lift (.modify { holding with })

private theorem drainWatched_holds (fuel : Nat) : Maintains (Holding window 0 0) (drainWatched config fuel : Watched hdr Bool) := by
  induction fuel with
  | zero => exact .throw _
  | succ fuel again =>
    refine .bind (awaitWatched_holds reliable closed) fun _ => .bind Ghost.maintains_look fun _ => ?_
    exact .ite (.pure _) (.ite (.pure _) again)

private theorem countLeakedWatched_holds (leftovers : Bool) :
    Maintains (Holding window 0 0) (countLeakedWatched config leftovers : Watched hdr Bool) := by
  refine .ite (.bind (abortReaderWatched_holds reliable closed) fun _ => .bind Ghost.maintains_look fun _ => ?_) (.pure _)
  exact .bind (fun state holding => Ghost.ensures_lift (.modify { holding with })) fun _ => .pure _

private theorem disconnectAndJoinWatched_holds (failure : Option String) (reader : Bool) :
    Maintains (Holding window 0 0) (disconnectAndJoinWatched config failure reader : Watched hdr (Except String Unit)) := by
  have awaits : Maintains (Holding window 0 0) (awaitWatched config : Watched hdr Moment) := awaitWatched_holds reliable closed
  have joins : Maintains (Holding window 0 0) (joinReaderByWatched config : Watched hdr Unit) :=
    .bind awaits fun _ => .bind Ghost.maintains_look fun _ => .ite (abortReaderWatched_holds reliable closed) reraise_holds
  refine .bind (.ite (.pure _) (.bind awaits fun _ => .pure _)) fun _ => .bind awaits fun _ => ?_
  exact .bind (.ite joins (.pure _)) fun _ => .pure _

private theorem runQos1ThroughputWatched_holds (few : config.qos1Window.toNat ≤ 65535) (fuel : Nat) {world : World hdr packetIds}
    (fresh : world.ids = .new) (offered : world.counters.offered = 0) (acked : world.counters.acked = 0) :
    Ensures (runQos1ThroughputWatched config connId fuel) (world, {}) (fun _ after => Kept config.qos1Window.toNat after.2)
      fun _ after => Kept config.qos1Window.toNat after.2 := by
  have started : Holding config.qos1Window.toNat 0 0 ({ world with permits := config.qos1Window.toNat }, {}) := by
    refine ⟨rfl, rfl, Nat.le_refl _, ?_, ?_, ⟨List.forall_mem_nil _, rfl, rfl⟩⟩
    · dsimp only
      rw [fresh, inUse_new, Nat.zero_add]
      rfl
    · dsimp only
      rw [fresh, inUse_new, offered, acked]
  refine Ghost.ensures_noting_step rfl (.bind (qos1LoopWatched_holds reliable closed few fuel 0 started.see) ?_)
  intro failure after holding
  have ends : Maintains (Holding config.qos1Window.toNat 0 0) (qos1DrainAndDisconnectWatched config fuel failure : Watched hdr _) :=
    .bind (drainWatched_holds reliable closed fuel) fun drained =>
      .bind (countLeakedWatched_holds reliable closed _) fun reader => disconnectAndJoinWatched_holds reliable closed failure reader
  exact (ends after holding).weaken (fun _ _ => Holding.kept) fun _ _ => Holding.kept

end

private theorem openSession_fresh (env : Nat → Moment) :
    Ensures (openSession config) (World.spawned hdr packetIds env)
      (fun _ after => after.ids = .new ∧ after.counters.offered = 0 ∧ after.counters.acked = 0) fun _ _ => True :=
  openSession_spawned config env trivial ⟨rfl, rfl, rfl⟩ fun _ => ⟨rfl, rfl, rfl⟩

private theorem validate_window (valid : config.validate = .ok ()) (reliable : config.qos = 1) : config.qos1Window.toNat ≤ 65535 := by
  by_contra wide
  have refused : config.qos = 1 ∧ ¬(1 ≤ config.qos1Window.toNat ∧ config.qos1Window.toNat ≤ 65535) :=
    ⟨reliable, fun range => wide range.2⟩
  unfold GenConfig.validate at valid
  rw [if_pos refused] at valid
  split at valid
  · cases valid
  · split at valid <;> cases valid

/-- The send window of a QoS 1 throughput connection is conserved. Run beside its trail the
task is the task; in every state it passes, whatever frames its reader handles in between,
the ids in use, the permits available and the permits held for publishes without an id
make up the window, and no more publishes are offered and unacknowledged. `allocate`
never fails, and no permit is forgotten without an id. -/
theorem send_window_conserved (valid : config.validate = .ok ()) (reliable : config.qos = 1)
    (closed : config.mode = .throughput) (fuel : Nat) (env : Nat → Moment) :
    Ghost.forget (runThroughputConnectionWatched config connId fuel (World.spawned hdr packetIds env, {})) =
        runThroughputConnection config connId fuel (World.spawned hdr packetIds env) ∧
      Ensures (runThroughputConnectionWatched config connId fuel) (World.spawned hdr packetIds env, {})
        (fun _ after => Kept config.qos1Window.toNat after.2) fun _ after => Kept config.qos1Window.toNat after.2 := by
  have untouched : Kept config.qos1Window.toNat {} := ⟨List.forall_mem_nil _, rfl, rfl⟩
  refine ⟨(runThroughputConnectionWatched_erases config connId fuel).same _ _, ?_⟩
  refine Ghost.ensures_lift_bind ((openSession_fresh config env).weaken (fun _ _ => id) fun _ _ _ => untouched) ?_
  rintro opened world ⟨fresh, offered, acked⟩
  have other : ¬config.qos = 0 := by
    rw [reliable]
    decide
  split
  · exact runQos1ThroughputWatched_holds reliable closed (validate_window config valid reliable) fuel fresh offered acked
  · exact .pure untouched

def windowOfTwo : GenConfig where
  mode := .throughput
  qos := 1
  connections := 1
  qos1Window := 2
  originNs := 1000000000
  window := ⟨1000000000, 1500000000⟩
  drainGraceNs := 2000000000
  window_fits := ⟨Nat.le_of_ble_eq_true rfl, Nat.le_of_ble_eq_true rfl⟩

def hastyPuback (moment : Nat) : Moment where
  nowNs := if moment < 10 then 1000000000 else 2000000000
  frames := if moment = 8 then [.puback firstId] else if moment = 11 then [.puback ⟨65, by decide⟩] else []
  written := .done
  session := none
  elapsed := true
  aborted := false

def trailOf {α : Type} : EStateM.Result Stop (World hdr packetIds × Trail) α → Trail
  | .ok _ after | .error _ after => after.2

private theorem Kept.trailOf {α : Type} {window : Nat} {program : Watched hdr α} {state : World hdr packetIds × Trail}
    (ensured : Ensures program state (fun _ after => Kept window after.2) fun _ after => Kept window after.2) :
    Kept window (trailOf (program state)) := by
  have kept := ensured.ran
  generalize program state = result at kept ⊢
  cases result <;> exact kept

def hastyTrail : Trail :=
  trailOf (runThroughputConnectionWatched windowOfTwo 0 5 (World.spawned unitBuckets packetIds hastyPuback, {}))

theorem send_window_conserved_hasty :
    windowOfTwo.validate = .ok () ∧ Kept 2 hastyTrail ∧
      hastyTrail.seen.length = 24 ∧
      (hastyTrail.seen.map fun glimpse => (glimpse.permits, glimpse.withoutId, glimpse.offered, glimpse.acked)).dedup =
        [(2, 0, 0, 0), (1, 1, 0, 0), (0, 2, 0, 0), (0, 1, 0, 0), (0, 0, 0, 0), (1, 0, 0, 1), (1, 0, 2, 1), (2, 0, 2, 2)] := by
  refine ⟨rfl, ?_, by decide +kernel, by decide +kernel⟩
  have valid : windowOfTwo.validate = .ok () := rfl
  exact .trailOf (@send_window_conserved unitBuckets windowOfTwo 0 valid rfl rfl 5 hastyPuback).2

end SendWindow
end UringMqtt.Bench
