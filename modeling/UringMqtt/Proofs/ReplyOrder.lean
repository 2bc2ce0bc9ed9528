import UringMqtt.Proofs.PacketLoop

/-! Replies leave in decode order, none lost, repeated or invented, and none is
held back across a wait. -/

namespace UringMqtt.Proofs.ReplyOrder
open Lib SessionSteps Outbox Conversation ExactlyOnce PacketLoop

variable {rmqtt : Rmqtt} {sync : LocalSync} (env : Nat → Moment)

/-! ### The bytes owed for the packets decoded -/

def owedReply : Disposition → Option Reply
  | .deliverThenReply _ reply | .reply reply => some reply
  | _ => none

def replyBytes (rmqtt : Rmqtt) (version : ProtocolVersion) : Option Reply → Bytes
  | some reply => encoding rmqtt version (reply.render version)
  | none => []

/-- The encodings, in decode order, of the replies `dispatch` owes for the packets. -/
def owedBytes (rmqtt : Rmqtt) (version : ProtocolVersion) (packets : List MqttPacket) : Bytes :=
  (dispatchRun packets {}).1.flatMap fun disposition => replyBytes rmqtt version (owedReply disposition)

/-- The packets decoded and not stopped, and whether the last one can still be stopped. An
idle close or the size gate stops the packet being decided. -/
def answeredStep : List MqttPacket × Bool → Observation → List MqttPacket × Bool
  | (packets, _), .decoded packet => (packets ++ [packet], true)
  | (packets, _), .sent _ _ | (packets, _), .readEnded _ => (packets, false)
  | (packets, true), .idleClosed | (packets, true), .gated => (packets.dropLast, false)
  | state, _ => state

def answered (log : List Observation) : List MqttPacket := (log.foldl answeredStep ([], false)).1

def undecided (log : List Observation) : Bool := (log.foldl answeredStep ([], false)).2

def violations (log : List Observation) : List Violation :=
  log.filterMap fun
    | .violated violation => some violation
    | _ => none

def closing (rmqtt : Rmqtt) (version : ProtocolVersion) (maxPacketSize : Option NonZeroU32) (violation : Violation) :
    Bytes :=
  match violation.disconnect rmqtt version maxPacketSize with
  | some packet => encoding rmqtt version packet
  | none => []

/-- Everything a packet loop owes its client for what the log shows. -/
def owed (rmqtt : Rmqtt) (version : ProtocolVersion) (maxPacketSize : Option NonZeroU32) (log : List Observation) : Bytes :=
  owedBytes rmqtt version (answered log) ++ (violations log).flatMap (closing rmqtt version maxPacketSize)

private theorem owedBytes_snoc (version : ProtocolVersion) (packets : List MqttPacket) (packet : MqttPacket) :
    owedBytes rmqtt version (packets ++ [packet]) =
      owedBytes rmqtt version packets ++ replyBytes rmqtt version (owedReply (answer packets packet)) := by
  simp [owedBytes, dispatchRun_append, dispatchRun, answer, stateAfter]

theorem answered_snoc (log : List Observation) (observation : Observation) :
    answered (log ++ [observation]) = (answeredStep (answered log, undecided log) observation).1 := by
  rw [answered, List.foldl_append]
  rfl

theorem undecided_snoc (log : List Observation) (observation : Observation) :
    undecided (log ++ [observation]) = (answeredStep (answered log, undecided log) observation).2 := by
  rw [undecided, List.foldl_append]
  rfl

theorem violations_snoc (log : List Observation) (observation : Observation) :
    violations (log ++ [observation]) = violations log ++ violations [observation] := by
  simp [violations, List.filterMap_append]

/-! ### The conversation accounts for them -/

def outstanding (rmqtt : Rmqtt) (version : ProtocolVersion) (maxPacketSize : Option NonZeroU32) : Stage → Bytes
  | .delivering _ reply | .offering _ reply _ | .starved reply => replyBytes rmqtt version reply
  | .replying reply => replyBytes rmqtt version (some reply)
  | .closing violation => closing rmqtt version maxPacketSize violation
  | _ => []

def Deciding : Stage → Prop
  | .delivering _ _ | .offering _ _ _ | .starved _ | .replying _ => True
  | _ => False

def Open : Stage → Prop
  | .reading => True
  | stage => Deciding stage

def closedWith : Stage → Option Violation
  | .closing violation | .parted violation => some violation
  | _ => none

/-- The bytes handed over and the bytes still owed are what the packets decoded are owed. -/
structure Accounts (rmqtt : Rmqtt) (version : ProtocolVersion) (loop : LoopConfig) (log : List Observation) (talk : Talk) :
    Prop where
  total : sentBytes rmqtt log ++ outstanding rmqtt version loop.maxPacketSize talk.stage =
    owed rmqtt version loop.maxPacketSize log
  violated : violations log = (closedWith talk.stage).toList
  kept : Open talk.stage → answered log = talk.packets
  deciding : Deciding talk.stage → undecided log = true
  last : undecided log = true → ∃ packets packet, answered log = packets ++ [packet] ∧
    sentBytes rmqtt log = owedBytes rmqtt version packets
  idle : talk.stage = .idled → .idleClosed ∈ log

structure Inert (rmqtt : Rmqtt) (observation : Observation) : Prop where
  undecided : ∀ state, answeredStep state observation = state
  peaceful : violations [observation] = []
  unsent : sentBytes rmqtt [observation] = []

section
variable {version : ProtocolVersion} {loop : LoopConfig} {script : Script} {log : List Observation} {talk : Talk}

def Passing : Observation → Bool
  | .decoded _ | .readEnded _ | .sent _ _ | .idleClosed | .gated | .violated _ => false
  | _ => true

variable {observation : Observation} {stage : Stage} {packets : List MqttPacket}

private theorem passing_inert (passing : Passing observation = true) : Inert rmqtt observation := by
  refine ⟨?_, ?_, ?_⟩
  · rintro ⟨packets, _ | _⟩ <;> cases observation <;> first | rfl | cases passing
  · cases observation <;> first | rfl | cases passing
  · cases observation <;> first | rfl | cases passing

private theorem passing_mechanical (mechanical : Mechanical observation) : Passing observation = true := by
  cases observation <;> first | rfl | exact mechanical.elim

private theorem Accounts.inert (accounts : Accounts rmqtt version loop log talk) (inert : Inert rmqtt observation)
    (same : outstanding rmqtt version loop.maxPacketSize stage = outstanding rmqtt version loop.maxPacketSize talk.stage)
    (closed : closedWith stage = closedWith talk.stage)
    (kept : Open stage → Open talk.stage)
    (deciding : Deciding stage → Deciding talk.stage) (idle : stage = .idled → talk.stage = .idled) :
    Accounts rmqtt version loop (log ++ [observation]) ⟨talk.packets, stage⟩ := by
  have fold := inert.undecided (ReplyOrder.answered log, ReplyOrder.undecided log)
  have answers : answered (log ++ [observation]) = answered log := by rw [answered_snoc, fold]
  have decides : undecided (log ++ [observation]) = undecided log := by rw [undecided_snoc, fold]
  have sends : sentBytes rmqtt (log ++ [observation]) = sentBytes rmqtt log := by
    rw [sentBytes_append, inert.unsent, List.append_nil]
  have violates : violations (log ++ [observation]) = violations log := by
    rw [violations_snoc, inert.peaceful, List.append_nil]
  refine ⟨?_, ?_, ?_, ?_, ?_, ?_⟩
  · rw [sends, owed, answers, violates, same]
    exact accounts.total
  · rw [violates, closed]
    exact accounts.violated
  · rw [answers]
    exact fun live => accounts.kept (kept live)
  · rw [decides]
    exact fun live => accounts.deciding (deciding live)
  · rw [decides, answers, sends]
    exact accounts.last
  · exact fun idled => List.mem_append_left _ (accounts.idle (idle idled))

private theorem Accounts.ended (accounts : Accounts rmqtt version loop log ⟨packets, .reading⟩)
    (error : Option IoError) (owes : outstanding rmqtt version loop.maxPacketSize stage = [])
    (closed : closedWith stage = none) (shut : ¬Open stage) (decided : ¬Deciding stage) (busy : stage ≠ .idled) :
    Accounts rmqtt version loop (log ++ [.readEnded error]) ⟨packets, stage⟩ := by
  have settled : undecided (log ++ [.readEnded error]) = false := by rw [undecided_snoc]; rfl
  have answers : answered (log ++ [.readEnded error]) = answered log := by rw [answered_snoc]; rfl
  have violates : violations (log ++ [.readEnded error]) = violations log := by
    rw [violations_snoc]
    exact List.append_nil _
  refine ⟨?_, ?_, fun live => absurd live shut, fun live => absurd live decided, ?_, fun idled => absurd idled busy⟩
  · rw [sentBytes_append, owes, owed, answers, violates, List.append_assoc]
    exact accounts.total
  · rw [violates, accounts.violated, closed]
    rfl
  · rw [settled]
    rintro ⟨⟩

private theorem Accounts.decoded (accounts : Accounts rmqtt version loop log ⟨packets, .reading⟩) (packet : MqttPacket) :
    Accounts rmqtt version loop (log ++ [.decoded packet]) ⟨packets ++ [packet], .decided (answer packets packet)⟩ := by
  have before : answered log = packets := accounts.kept trivial
  have answers : answered (log ++ [.decoded packet]) = packets ++ [packet] := by
    rw [answered_snoc, before]
    rfl
  have opens : undecided (log ++ [.decoded packet]) = true := by rw [undecided_snoc]; rfl
  have peaceful : violations log = [] := accounts.violated
  have violates : violations (log ++ [.decoded packet]) = [] := by
    rw [violations_snoc, peaceful]
    rfl
  have sends : sentBytes rmqtt (log ++ [.decoded packet]) = owedBytes rmqtt version packets := by
    have total := accounts.total
    rw [owed, peaceful, before] at total
    simpa [sentBytes, outstanding] using total
  have owes : outstanding rmqtt version loop.maxPacketSize (.decided (answer packets packet)) =
      replyBytes rmqtt version (owedReply (answer packets packet)) := by
    cases answer packets packet <;> rfl
  refine ⟨?_, ?_, fun _ => answers, fun _ => opens, fun _ => ⟨packets, packet, answers, sends⟩, ?_⟩
  · rw [owed, sends, owes, answers, violates, owedBytes_snoc]
    exact (List.append_nil _).symm
  · rw [violates]
    cases answer packets packet <;> rfl
  · cases answer packets packet <;> rintro ⟨⟩

private theorem Accounts.stopped {packets : List MqttPacket} {stage after : Stage}
    (accounts : Accounts rmqtt version loop log ⟨packets, stage⟩) {observation : Observation}
    (stops : observation = .idleClosed ∨ observation = .gated)
    (quiet : ¬Deciding stage → outstanding rmqtt version loop.maxPacketSize stage = [])
    (peaceful : closedWith stage = none) (owes : outstanding rmqtt version loop.maxPacketSize after = [])
    (closed : closedWith after = none) (shut : ¬Open after) (decided : ¬Deciding after)
    (idle : after = .idled → observation = .idleClosed) :
    Accounts rmqtt version loop (log ++ [observation]) ⟨packets, after⟩ := by
  have calm : violations log = [] := by
    rw [accounts.violated, peaceful]
    rfl
  have violates : violations (log ++ [observation]) = [] := by
    rw [violations_snoc, calm]
    rcases stops with rfl | rfl <;> rfl
  have sends : sentBytes rmqtt (log ++ [observation]) = sentBytes rmqtt log := by
    rw [sentBytes_append]
    rcases stops with rfl | rfl <;> exact List.append_nil _
  have settled : undecided (log ++ [observation]) = false := by
    rw [undecided_snoc]
    cases undecided log <;> rcases stops with rfl | rfl <;> rfl
  refine ⟨?_, ?_, fun live => absurd live shut, fun live => absurd live decided, ?_, ?_⟩
  · rw [sends, owes, owed, violates, answered_snoc, List.append_nil]
    cases flag : undecided log with
    | true =>
      obtain ⟨before, last, answers, sent⟩ := accounts.last flag
      rw [sent, answers]
      rcases stops with rfl | rfl <;> simp [answeredStep]
    | false =>
      have nothing : ¬Deciding stage := by
        intro live
        rw [accounts.deciding live] at flag
        cases flag
      have total := accounts.total
      rw [quiet nothing, owed, calm] at total
      rcases stops with rfl | rfl <;> simpa [answeredStep] using total
  · rw [violates, closed]
    rfl
  · rw [settled]
    rintro ⟨⟩
  · intro idled
    rw [idle idled]
    exact List.mem_append_right _ (by simp)

private theorem Accounts.replied {packets : List MqttPacket} {reply : Reply}
    (accounts : Accounts rmqtt version loop log ⟨packets, .replying reply⟩) :
    Accounts rmqtt version loop (log ++ [.sent version (reply.render version)]) ⟨packets, .reading⟩ := by
  set observation := Observation.sent version (reply.render version)
  have answers : answered (log ++ [observation]) = answered log := by rw [answered_snoc]; rfl
  have settled : undecided (log ++ [observation]) = false := by rw [undecided_snoc]; rfl
  have violates : violations (log ++ [observation]) = violations log := by
    rw [violations_snoc]
    exact List.append_nil _
  refine ⟨?_, ?_, fun _ => ?_, by rintro ⟨⟩, ?_, by rintro ⟨⟩⟩
  · rw [owed, answers, violates, sentBytes_append]
    have total := accounts.total
    simpa [owed, sentBytes, outstanding, replyBytes, observation] using total
  · rw [violates]
    exact accounts.violated
  · rw [answers]
    exact accounts.kept trivial
  · rw [settled]
    rintro ⟨⟩

private theorem Accounts.violation {violation : Violation}
    (accounts : Accounts rmqtt version loop log ⟨packets, .offended violation⟩) :
    Accounts rmqtt version loop (log ++ [.violated violation]) ⟨packets, .closing violation⟩ := by
  have answers : answered (log ++ [.violated violation]) = answered log := by
    rw [answered_snoc]
    cases undecided log <;> rfl
  have decides : undecided (log ++ [.violated violation]) = undecided log := by
    rw [undecided_snoc]
    cases undecided log <;> rfl
  have calm : violations log = [] := accounts.violated
  have violates : violations (log ++ [.violated violation]) = [violation] := by
    rw [violations_snoc, calm]
    rfl
  have sends : sentBytes rmqtt (log ++ [.violated violation]) = sentBytes rmqtt log := by
    rw [sentBytes_append]
    exact List.append_nil _
  refine ⟨?_, violates, by rintro ⟨⟩, by rintro ⟨⟩, ?_, by rintro ⟨⟩⟩
  · have total := accounts.total
    rw [owed, calm] at total
    rw [owed, answers, violates, sends]
    simpa [outstanding] using total
  · rw [decides, answers, sends]
    exact accounts.last

private theorem Accounts.parted {violation : Violation} {packet : MqttPacket}
    (accounts : Accounts rmqtt version loop log ⟨packets, .closing violation⟩)
    (fits : violation.disconnect rmqtt version loop.maxPacketSize = some packet) :
    Accounts rmqtt version loop (log ++ [.sent version packet]) ⟨packets, .parted violation⟩ := by
  have answers : answered (log ++ [.sent version packet]) = answered log := by rw [answered_snoc]; rfl
  have settled : undecided (log ++ [.sent version packet]) = false := by rw [undecided_snoc]; rfl
  have violates : violations (log ++ [.sent version packet]) = violations log := by
    rw [violations_snoc]
    exact List.append_nil _
  refine ⟨?_, ?_, by rintro ⟨⟩, by rintro ⟨⟩, ?_, by rintro ⟨⟩⟩
  · have total := accounts.total
    rw [owed, answers, violates, sentBytes_append]
    simpa [owed, sentBytes, outstanding, closing, fits] using total
  · rw [violates]
    exact accounts.violated
  · rw [settled]
    rintro ⟨⟩

/-- Step: every step of the conversation keeps the accounts. -/
theorem Accounts.step (accounts : Accounts rmqtt version loop log talk) {after : Talk}
    (step : talk.Step rmqtt version loop script observation after) :
    Accounts rmqtt version loop (log ++ [observation]) after := by
  cases step with
  | mechanical _ mechanical => exact accounts.inert (passing_inert (passing_mechanical mechanical)) rfl rfl id id id
  | awaitRead | awaitSlot | slotExpired => exact accounts.inert (passing_inert rfl) rfl rfl id id id
  | readExpired => exact accounts.inert (passing_inert rfl) rfl rfl False.elim False.elim (by simp)
  | offered | exhausted =>
    exact accounts.inert (passing_inert rfl) rfl rfl (fun _ => trivial) (fun _ => trivial) (by simp)
  | admitted packets publish reply =>
    cases reply <;> exact accounts.inert (passing_inert rfl) rfl rfl (fun _ => trivial) (fun _ => trivial) (by rintro ⟨⟩)
  | ended | rejected | truncated | failed => exact accounts.ended _ rfl rfl id id (by simp)
  | decoded packets packet => exact accounts.decoded packet
  | idleClosed packets interruptible =>
    cases interruptible with
    | reading | offended => exact accounts.stopped (.inl rfl) (fun _ => rfl) rfl rfl rfl id id (fun _ => rfl)
    | replying | starved =>
      exact accounts.stopped (.inl rfl) (fun idle => absurd trivial idle) rfl rfl rfl id id (fun _ => rfl)
  | gated =>
    exact accounts.stopped (.inr rfl) (fun idle => absurd trivial idle) rfl rfl rfl id id (by simp)
  | replied => exact accounts.replied
  | violated => exact accounts.violation
  | disconnected packets fits => exact accounts.parted fits

/-- Run: so does every conversation. -/
theorem talks_accounts (talks : Talks rmqtt version loop script log talk) : Accounts rmqtt version loop log talk := by
  refine talks.invariant (Accounts rmqtt version loop) ?_ fun _ _ _ _ accounts step => accounts.step step
  exact ⟨rfl, rfl, fun _ => rfl, by rintro ⟨⟩, by rintro ⟨⟩, by rintro ⟨⟩⟩

end

/-! ### Over every run of the packet loop -/

/-- Nothing failed to be written and the idle budget did not run out. -/
def Undisturbed (log : List Observation) : Prop :=
  ∀ observation ∈ log, Halting observation = false ∧ observation ≠ .idleClosed

section
variable {view : sync.Room → Semaphore Nat} {bound : MaxInboundPacketSize} {version : ProtocolVersion}
  {world : World rmqtt sync}

/-- The bytes the packet loop writes are a prefix of what it owes: the replies for
the packets decoded and not stopped, in decode order, and at most one DISCONNECT.
If it returns undisturbed they are all of it, and behind a failed or timed-out
flush or encode there are none. -/
theorem replies_in_order (framing : rmqtt.LawfulFraming) (lawful : sync.Lawful view)
    (entered : Entered view bound version world) (loop : LoopConfig) (turns : Nat) :
    ∃ log, (worldOf (runPacketLoop env loop turns world)).trace = world.trace ++ log ∧
      (worldOf (runPacketLoop env loop turns world)).written = world.written ++ wroteBytes log ∧
      wroteBytes log <+: owed rmqtt version loop.maxPacketSize log ∧
      (violations log).length ≤ 1 ∧
      (returned (answerOf (runPacketLoop env loop turns world)) = true → Undisturbed log →
        wroteBytes log = owed rmqtt version loop.maxPacketSize log) ∧
      ∀ before observation after, log = before ++ observation :: after → Halting observation = true →
        wroteBytes after = [] := by
  obtain ⟨log, talk, final⟩ := runPacketLoop_final env lawful framing turns (entered.live loop)
  have accounts := talks_accounts final.talks
  refine ⟨log, final.safe.trace, final.safe.written, ?_, ?_, ?_, final.safe.silent⟩
  · rw [← accounts.total]
    exact final.safe.sent.trans (List.prefix_append _ _)
  · rw [accounts.violated]
    cases closedWith talk.stage with
    | none => exact Nat.zero_le 1
    | some violation => exact Nat.le_refl 1
  · intro returned undisturbed
    have busy : talk.stage ≠ .idled := fun idled => (undisturbed _ (accounts.idle idled)).2 rfl
    obtain ⟨whole, parted⟩ := final.whole returned (fun observation member => (undisturbed observation member).1) busy
    have nothing : outstanding rmqtt version loop.maxPacketSize talk.stage = [] := by
      cases stage : talk.stage with
      | closing violation =>
        rw [stage] at parted
        have unsent : violation.disconnect rmqtt version loop.maxPacketSize = none := parted
        simp only [outstanding, closing, unsent]
      | closed => rfl
      | broken => rfl
      | parted => rfl
      | reading | delivering | offering | replying | starved | offended | idled =>
        rw [stage] at parted
        exact parted.elim
    have total := accounts.total
    rwa [nothing, List.append_nil, ← whole] at total

def pingCodec : Rmqtt :=
  .plain Framing.headerOnlyPackets (fun src => (.ok none, src)) fun _ packet =>
    if packet = .v3 .pingResponse then some [0xD0, 0x00] else none

def pinging : World pingCodec .fifo :=
  .accepted _ (.new .fifo Publish 0) [⟨[0xC0], by simp⟩, ⟨[0x00], by simp⟩]

theorem pinging_entered : Entered id .default .mqtt3 pinging :=
  .accepted (Rmqtt.plain_lawful _ _ _) (fun closed => Bool.noConfusion closed) _

theorem replies_in_order_ping :
    (worldOf (runPacketLoop prompt ⟨1000, none, 100⟩ 2 pinging)).written = [0xD0, 0x00] ∧
    ∃ log, (worldOf (runPacketLoop prompt ⟨1000, none, 100⟩ 2 pinging)).trace = [] ++ log ∧
      wroteBytes log = owed pingCodec .mqtt3 none log := by
  refine ⟨by decide +kernel, ?_⟩
  obtain ⟨log, trace, _, _, _, whole, _⟩ := replies_in_order prompt (Rmqtt.plain_lawful _ _ _) LocalSync.fifo_lawful
    pinging_entered ⟨1000, none, 100⟩ 2
  refine ⟨log, trace, whole (by decide +kernel) ?_⟩
  have logged : log = (worldOf (runPacketLoop prompt ⟨1000, none, 100⟩ 2 pinging)).trace := trace.symm
  rw [logged]
  unfold Undisturbed
  decide +kernel

/-- Whenever the packet loop waits for bytes or for a slot in the event channel,
nothing is queued and every reply owed for the packets before is on the wire. -/
theorem no_reply_held_across_wait (framing : rmqtt.LawfulFraming) (lawful : sync.Lawful view)
    (entered : Entered view bound version world) (loop : LoopConfig) (turns : Nat) :
    ∃ log, (worldOf (runPacketLoop env loop turns world)).trace = world.trace ++ log ∧
      ∀ before after unflushed writeBuffer,
        (log = before ++ .awaitRead unflushed writeBuffer :: after →
          unflushed = none ∧ writeBuffer = [] ∧ wroteBytes before = owedBytes rmqtt version (answered before)) ∧
        (log = before ++ .awaitSlot unflushed writeBuffer :: after →
          unflushed = none ∧ writeBuffer = [] ∧ ∃ packets packet, answered before = packets ++ [packet] ∧
            wroteBytes before = owedBytes rmqtt version packets) := by
  obtain ⟨log, talk, final⟩ := runPacketLoop_final env lawful framing turns (entered.live loop)
  refine ⟨log, final.safe.trace, fun before after unflushed writeBuffer => ⟨fun split => ?_, fun split => ?_⟩⟩
  · obtain ⟨none, empty, flushed⟩ := final.safe.waits before _ after split
    have talks := final.talks
    rw [split] at talks
    obtain ⟨earlier, later, run, step, _⟩ := talks.cut_at
    refine ⟨none, empty, ?_⟩
    have accounts := talks_accounts run
    cases step with
    | mechanical _ mechanical => exact mechanical.elim
    | awaitRead packets =>
      have calm : violations before = [] := accounts.violated
      have total := accounts.total
      rw [owed, calm] at total
      rw [flushed]
      simpa [outstanding] using total
  · obtain ⟨none, empty, flushed⟩ := final.safe.waits before _ after split
    have talks := final.talks
    rw [split] at talks
    obtain ⟨earlier, later, run, step, _⟩ := talks.cut_at
    refine ⟨none, empty, ?_⟩
    have accounts := talks_accounts run
    cases step with
    | mechanical _ mechanical => exact mechanical.elim
    | awaitSlot packets publish reply idleWait =>
      obtain ⟨earlier, packet, answers, sent⟩ := accounts.last (accounts.deciding trivial)
      exact ⟨earlier, packet, answers, by rw [flushed, sent]⟩

theorem no_reply_held_across_wait_ping :
    ∃ log, (worldOf (runPacketLoop prompt ⟨1000, none, 100⟩ 2 pinging)).trace = [] ++ log ∧
      ∃ before, log = before ++ [.awaitRead none [], .readEnded none] ∧
        wroteBytes before = owedBytes pingCodec .mqtt3 (answered before) := by
  obtain ⟨log, trace, waits⟩ := no_reply_held_across_wait prompt (Rmqtt.plain_lawful _ _ _) LocalSync.fifo_lawful
    pinging_entered ⟨1000, none, 100⟩ 2
  have split : log = log.take (log.length - 2) ++ [.awaitRead none [], .readEnded none] := by
    have logged : log = (worldOf (runPacketLoop prompt ⟨1000, none, 100⟩ 2 pinging)).trace := trace.symm
    rw [logged]
    decide +kernel
  exact ⟨log, trace, _, split, ((waits _ _ _ _).1 split).2.2⟩

end

end UringMqtt.Proofs.ReplyOrder
