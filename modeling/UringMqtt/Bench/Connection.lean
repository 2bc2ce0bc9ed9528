import UringMqtt.Bench.Schedule
import UringMqtt.Lib.Run

/-! One connection of the generator, `bench/src/gen.rs`: what its task shares with its
session reader, and what it asks of its surroundings. Before each of these the reader
may have handled any frames. -/

namespace UringMqtt.Bench
open Lib

structure Allocator where
  Ids : Type
  new : Ids
  allocate : Ids → Option NonZeroU16 × Ids
  release : Ids → UInt16 → Bool × Ids

/-- What the session reader takes from its socket, or its panic. -/
inductive Frame
  | puback (packetId : NonZeroU16)
  | other
  | undecodable
  | readFailed
  | endOfStream
  | panics (cause : String)
deriving DecidableEq

inductive Written
  | done
  | failed (error : String)
  | elapsed
deriving DecidableEq

inductive OpenError
  | connect (reason : String)
  | protocol (reason : String)
deriving DecidableEq

/-- What the surroundings hold for one look at them. -/
structure Moment where
  nowNs : Nat
  frames : List Frame
  written : Written
  session : Option OpenError
  elapsed : Bool
  /-- The task is cancelled at its next await. -/
  aborted : Bool

/-- The `AtomicU64`s of a run without their wrap: exact as long as each stays below 2^64. -/
structure Counters where
  offered : Nat
  acked : Nat
  connectErrors : Nat
  protocolErrors : Nat
  stalled : Nat
  latenessOverRange : Nat
  missedSlots : Nat
  lastWriteStartNs : Nat
deriving DecidableEq

structure Publication where
  packetId : Option NonZeroU16
  stamp : Stamp
deriving DecidableEq

structure Account where
  offered : Nat
  acked : Nat
  inFlight : UInt64
deriving DecidableEq

/-- What moves the acknowledgement counters, and where it leaves them. -/
inductive Entry
  /-- A batch with these packet ids was counted offered. -/
  | offered (ids : List NonZeroU16) (account : Account)
  /-- A PUBACK was handled; `early` if its id was allocated to a batch not yet offered. -/
  | puback (packetId : NonZeroU16) (early accepted : Bool) (account : Account)
deriving DecidableEq

/-- The connection's share of the run. The last four fields are not in the program. -/
structure World (hdr : Hdr) (allocator : Allocator) where
  env : Nat → Moment
  tick : Nat
  reading : Bool
  readerPanic : Option String
  ids : allocator.Ids
  inFlight : UInt64
  permits : Nat
  counters : Counters
  lateness : hdr.Histogram
  handed : List Publication
  completed : List Publication
  pending : List NonZeroU16
  log : List Entry

inductive Stop
  | aborted
  | panicked (cause : String)
  /-- The fuel of a loop ran out. -/
  | unfinished
deriving DecidableEq

abbrev Gen (hdr : Hdr) (allocator : Allocator) := EStateM Stop (World hdr allocator)

namespace World
variable {hdr : Hdr} {allocator : Allocator}

def spawned (hdr : Hdr) (allocator : Allocator) (env : Nat → Moment) : World hdr allocator where
  env
  tick := 0
  reading := false
  readerPanic := none
  ids := allocator.new
  inFlight := 0
  permits := 0
  counters := ⟨0, 0, 0, 0, 0, 0, 0, 0⟩
  lateness := hdr.new
  handed := []
  completed := []
  pending := []
  log := []

def start (self : World hdr allocator) : World hdr allocator := { self with reading := true }

def note (self : World hdr allocator) (entry : Account → Entry) : World hdr allocator :=
  { self with log := self.log ++ [entry ⟨self.counters.offered, self.counters.acked, self.inFlight⟩] }

/-- One frame in `qos1_reader_task`, `qos1_latency_reader` or `qos0_reader_task`. -/
def readFrame (config : GenConfig) (self : World hdr allocator) (frame : Frame) : World hdr allocator :=
  let rejected := { self with counters.protocolErrors := self.counters.protocolErrors + 1 }
  if !self.reading then self
  else match frame with
    | .puback packetId =>
      if config.qos = 1 then
        match allocator.release self.ids packetId.get with
        | (true, ids) =>
          let accepted : World hdr allocator := { self with
            ids
            counters.acked := self.counters.acked + 1
            permits := if config.mode = .throughput then self.permits + 1 else self.permits
            inFlight := self.inFlight - 1 }
          accepted.note (.puback packetId (self.pending.contains packetId) true)
        | (false, ids) => note { rejected with ids } (.puback packetId (self.pending.contains packetId) false)
      else rejected
    | .other => rejected
    | .undecodable => { rejected with reading := false }
    | .readFailed | .endOfStream => { self with reading := false }
    | .panics cause => { self with reading := false, readerPanic := some cause }

end World

variable {hdr : Hdr} {allocator : Allocator}

/-- Look at the surroundings: the reader has gone on, and time has. -/
def observe (config : GenConfig) : Gen hdr allocator Moment := do
  let world ← get
  let moment := world.env world.tick
  set (moment.frames.foldl (World.readFrame config) { world with tick := world.tick + 1 })
  return moment

def monotonicNowNs (config : GenConfig) : Gen hdr allocator Nat := do
  return (← observe config).nowNs

def await (config : GenConfig) : Gen hdr allocator Moment := do
  let moment ← observe config
  if moment.aborted then throw .aborted
  return moment

def allocate (config : GenConfig) : Gen hdr allocator (Option NonZeroU16) := do
  let _ ← observe config
  let world ← get
  set { world with
    ids := (allocator.allocate world.ids).2
    pending := world.pending ++ (allocator.allocate world.ids).1.toList }
  return (allocator.allocate world.ids).1

def addOffered (count : Nat) : Gen hdr allocator Unit :=
  modify fun world => { world with counters.offered := world.counters.offered + count }

def addConnectErrors (count : Nat) : Gen hdr allocator Unit :=
  modify fun world => { world with counters.connectErrors := world.counters.connectErrors + count }

def addProtocolErrors (count : Nat) : Gen hdr allocator Unit :=
  modify fun world => { world with counters.protocolErrors := world.counters.protocolErrors + count }

def addStalled (count : Nat) : Gen hdr allocator Unit :=
  modify fun world => { world with counters.stalled := world.counters.stalled + count }

def addLatenessOverRange (count : Nat) : Gen hdr allocator Unit :=
  modify fun world => { world with counters.latenessOverRange := world.counters.latenessOverRange + count }

def addMissedSlots (count : Nat) : Gen hdr allocator Unit :=
  modify fun world => { world with counters.missedSlots := world.counters.missedSlots + count }

def updateLastWriteStart (startNs : Nat) : Gen hdr allocator Unit :=
  modify fun world => { world with counters.lastWriteStartNs := max world.counters.lastWriteStartNs startNs }

def addInFlight (count : Nat) : Gen hdr allocator Unit :=
  modify fun world => { world with inFlight := world.inFlight + .ofNat count }

def recordLateness (valueNs : Nat) : Gen hdr allocator Unit := do
  let world ← get
  match hdr.record world.lateness valueNs with
  | some histogram => set { world with lateness := histogram }
  | none => throw (.panicked "latency within histogram bounds")

def handOver (writeBuf : List Publication) : Gen hdr allocator Unit :=
  modify fun world =>
    World.note { world with handed := world.handed ++ writeBuf, pending := [] }
      (.offered (writeBuf.filterMap Publication.packetId))

def noteCompleted (writeBuf : List Publication) : Gen hdr allocator Unit :=
  modify fun world => { world with completed := world.completed ++ writeBuf }

end UringMqtt.Bench
