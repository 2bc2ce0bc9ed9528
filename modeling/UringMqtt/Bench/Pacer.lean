import UringMqtt.Bench.Connection

/-! The open-loop pacer of one connection, `latency_pacer` in `bench/src/gen.rs`. -/

namespace UringMqtt.Bench
open Lib

def batchMax : Nat := 64

/-- A collected slot: the packet id of a QoS 1 publish and the due time. -/
abbrev Slot := Option NonZeroU16 × Nat

inductive SendOutcome
  | sent
  | windowEnded
  | failed (cause : String)
deriving DecidableEq

variable {hdr : Hdr} {allocator : Allocator} (config : GenConfig) (connId : UInt32) (rate : Nat)

def slotDue (slotK : Nat) : Gen hdr allocator Nat :=
  match slotDueNs connId.toNat slotK config.connections.toNat rate config.originNs.toNat with
  | some due => pure due
  | none => throw (.panicked "slot offset fits in u64 (under ~584 years)")

def pacerWait : (fuel dueNs : Nat) → Gen hdr allocator Unit
  | 0, _ => throw .unfinished
  | fuel + 1, dueNs => do
    let now ← monotonicNowNs config
    if now ≥ dueNs then return ()
    let _ ← await config
    pacerWait fuel dueNs

def countRemainingMissed (startK : Nat) : Gen hdr allocator Unit :=
  let ownCount := ownSlotCount connId.toNat config.connections.toNat (config.windowDueJCount rate)
  addMissedSlots (min (ownCount - startK) u64Max)

def skipPastDueMissed (nextSlotK : Nat) : Gen hdr allocator Nat := do
  let elapsedNs := (← monotonicNowNs config) - config.originNs.toNat
  let pastDueJCount := saturatingMul128 (elapsedNs + 1) rate ⌈/⌉ 1000000000
  let boundK := min (ownSlotCount connId.toNat config.connections.toNat pastDueJCount)
    (ownSlotCount connId.toNat config.connections.toNat (config.windowDueJCount rate))
  let skipped := boundK - nextSlotK
  if skipped = 0 then return nextSlotK
  addMissedSlots (min skipped u64Max)
  return min boundK u64Max

/-- Fill the batch with slots that are due; `room` is what is left of `BATCH`. -/
def latencyCollectBatch : (room nextSlotK : Nat) → List Slot → Gen hdr allocator (Nat × List Slot)
  | 0, nextSlotK, batch => return (nextSlotK, batch)
  | room + 1, nextSlotK, batch => do
    let due ← slotDue config connId rate nextSlotK
    if due ≥ slotGridEndNs config.window then return (nextSlotK, batch)
    if due > (← monotonicNowNs config) then return (nextSlotK, batch)
    if config.qos = 1 then
      match ← allocate config with
      | none => return (← skipPastDueMissed config connId rate nextSlotK, batch)
      | some id => latencyCollectBatch room (saturatingAdd nextSlotK 1) (batch ++ [(some id, due)])
    else latencyCollectBatch room (saturatingAdd nextSlotK 1) (batch ++ [(none, due)])

def latencyReleaseBatchIds (batch : List Slot) : Gen hdr allocator Unit := do
  if config.qos = 1 then
    let _ ← observe config
    modify fun world => { world with
      ids := (batch.filterMap Prod.fst).foldl (fun ids id => (allocator.release ids id.get).2) world.ids
      pending := [] }

def latencyDropBatch (batch : List Slot) (nextSlotK : Nat) : Gen hdr allocator Unit := do
  latencyReleaseBatchIds config batch
  addMissedSlots batch.length
  countRemainingMissed config connId rate nextSlotK

def slotPacketId (id : Option NonZeroU16) : Gen hdr allocator (Option NonZeroU16) :=
  if config.qos = 1 then
    match id with
    | some id => pure (some id)
    | none => throw (.panicked "QoS 1 batch entry carries a packet id")
  else pure none

def latencyEncodeBatch : List Slot → (nextSeq : Nat) → Gen hdr allocator (List Publication × Nat)
  | [], nextSeq => return ([], nextSeq)
  | (id, due) :: rest, nextSeq => do
    let stamp : Stamp := ⟨connId, .ofNat nextSeq, .ofNat due⟩
    let packetId ← slotPacketId config id
    let (writeBuf, nextSeq) ← latencyEncodeBatch rest (saturatingAdd nextSeq 1)
    return (⟨packetId, stamp⟩ :: writeBuf, nextSeq)

def recordSlotLateness (sendNs due : Nat) : Gen hdr allocator Unit :=
  if due ≥ config.window.startNs ∧ due < config.window.endNs then
    let value := sendNs - due
    if value > latencyMaxNs then addLatenessOverRange 1
    else recordLateness (max value 1)
  else pure ()

def recordBatchLateness (sendNs : Nat) : List Slot → Gen hdr allocator Unit
  | [] => return ()
  | (_, due) :: rest => do
    recordSlotLateness config sendNs due
    recordBatchLateness sendNs rest

/-- What the write future does behind its gate, before its first write. -/
def beginWrite (start : Nat) (batch : List Slot) (writeBuf : List Publication) : Gen hdr allocator Unit := do
  updateLastWriteStart start
  addOffered batch.length
  addInFlight (if config.qos = 1 then batch.length else 0)
  handOver writeBuf

def failBatch (batch : List Slot) (cause : String) : Gen hdr allocator SendOutcome := do
  addStalled (if config.qos ≠ 1 then batch.length else 0)
  return .failed cause

def latencySendBatch (batch : List Slot) (writeBuf : List Publication) : Gen hdr allocator SendOutcome := do
  let start ← monotonicNowNs config
  if start ≥ config.window.endNs then return .windowEnded
  beginWrite config start batch writeBuf
  match (← await config).written with
  | .done =>
    noteCompleted writeBuf
    recordBatchLateness config (← monotonicNowNs config) batch
    return .sent
  | .failed error => failBatch config batch s!"publish write failed: {error}"
  | .elapsed => failBatch config batch "publish write did not finish by the hard deadline"

/-- The loop of `latency_pacer`. -/
def pacerLoop : (fuel nextSlotK nextSeq : Nat) → Gen hdr allocator (Except String Unit)
  | 0, _, _ => throw .unfinished
  | fuel + 1, nextSlotK, nextSeq => do
    let dueNs ← slotDue config connId rate nextSlotK
    if dueNs ≥ slotGridEndNs config.window then return .ok ()
    pacerWait config fuel dueNs
    if (← monotonicNowNs config) ≥ config.window.endNs then
      countRemainingMissed config connId rate nextSlotK
      return .ok ()
    let (nextSlotK, batch) ← latencyCollectBatch config connId rate batchMax nextSlotK []
    if batch.isEmpty then pacerLoop fuel nextSlotK nextSeq
    else
      let (writeBuf, nextSeq) ← latencyEncodeBatch config connId batch nextSeq
      match ← latencySendBatch config batch writeBuf with
      | .sent => pacerLoop fuel nextSlotK nextSeq
      | .windowEnded =>
        latencyDropBatch config connId rate batch nextSlotK
        return .ok ()
      | .failed cause =>
        countRemainingMissed config connId rate nextSlotK
        return .error cause

def latencyPacer (fuel : Nat) : Gen hdr allocator (Except String Unit) := pacerLoop config connId rate fuel 0 0

end UringMqtt.Bench
