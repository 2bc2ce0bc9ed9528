import UringMqtt.Bench.Pacer

/-! The closed-loop sessions of the generator and the end of a session,
`bench/src/gen.rs`. -/

namespace UringMqtt.Bench
open Lib

def publishWriteFailure : Written → Option String
  | .done => none
  | .failed error => some s!"publish write failed: {error}"
  | .elapsed => some "publish write did not finish by the hard deadline"

/-- `disconnect` is `none` when no DISCONNECT was written. The shutdown has no deadline. -/
def teardownFailure (disconnect : Option Written) (shutdown : Written) : Option String :=
  let written := match disconnect with
    | none | some .done => []
    | some (.failed error) => [s!"DISCONNECT write failed: {error}"]
    | some .elapsed => ["DISCONNECT write did not finish by the hard deadline"]
  let shut := match shutdown with
    | .failed error => [s!"write-half shutdown failed: {error}"]
    | .done | .elapsed => []
  match written ++ shut with
  | [] => none
  | causes => some ("; ".intercalate causes)

def sessionResult : (failure teardown : Option String) → Except String Unit
  | none, none => .ok ()
  | some cause, none | none, some cause => .error cause
  | some first, some later => .error s!"{first}; {later}"

variable {hdr : Hdr} {allocator : Allocator} (config : GenConfig) (connId : UInt32)

def reraiseReaderPanic : Gen hdr allocator Unit := do
  match (← get).readerPanic with
  | some cause => throw (.panicked cause)
  | none => return ()

def abortReader : Gen hdr allocator Unit := do
  let _ ← await config
  modify fun world => { world with reading := false }
  reraiseReaderPanic

/-- `join_reader_by`: a reader that still runs after the wait has reached the deadline. -/
def joinReaderBy : Gen hdr allocator Unit := do
  let _ ← await config
  if (← get).reading then abortReader config else reraiseReaderPanic

def drain : (fuel : Nat) → Gen hdr allocator Bool
  | 0 => throw .unfinished
  | fuel + 1 => do
    let moment ← await config
    if (← get).inFlight = 0 then return true
    if moment.elapsed then return false
    drain fuel

def countLeaked (leftovers : Bool) : Gen hdr allocator Bool :=
  if leftovers then do
    abortReader config
    addStalled (← get).inFlight.toNat
    return false
  else pure true

def writeDisconnect (skipped : Bool) : Gen hdr allocator (Option Written) :=
  if skipped then pure none
  else do
    return some (← await config).written

def joinHandle (reader : Bool) : Gen hdr allocator Unit :=
  if reader then joinReaderBy config else pure ()

/-- How every session ends: DISCONNECT unless a publish write failed, shut the writer
down, and end the reader. -/
def disconnectAndJoin (failure : Option String) (reader : Bool) : Gen hdr allocator (Except String Unit) := do
  let disconnect ← writeDisconnect config failure.isSome
  let shutdown := (← await config).written
  joinHandle config reader
  return sessionResult failure (teardownFailure disconnect shutdown)

def qos1DrainAndDisconnect (fuel : Nat) (writeFailure : Option String) : Gen hdr allocator (Except String Unit) := do
  let drained ← drain config fuel
  let reader ← countLeaked config (!drained || writeFailure.isSome)
  disconnectAndJoin config writeFailure reader

def encodeQos0Batch : (room nextSeq : Nat) → Gen hdr allocator (List Publication × Nat)
  | 0, nextSeq => return ([], nextSeq)
  | room + 1, nextSeq => do
    let now ← monotonicNowNs config
    let stamp : Stamp := ⟨connId, .ofNat nextSeq, .ofNat now⟩
    let (writeBuf, nextSeq) ← encodeQos0Batch room (saturatingAdd nextSeq 1)
    return (⟨none, stamp⟩ :: writeBuf, nextSeq)

def writeBatch (writeBuf : List Publication) : Gen hdr allocator (Option String) := do
  addOffered writeBuf.length
  addInFlight (if config.qos = 1 then writeBuf.length else 0)
  handOver writeBuf
  match publishWriteFailure (← await config).written with
  | none =>
    noteCompleted writeBuf
    return none
  | some cause => return some cause

def qos0Loop : (fuel nextSeq : Nat) → Gen hdr allocator (Option String)
  | 0, _ => throw .unfinished
  | fuel + 1, nextSeq => do
    if (← monotonicNowNs config) ≥ config.window.endNs then return none
    let (writeBuf, nextSeq) ← encodeQos0Batch config connId batchMax nextSeq
    match ← writeBatch config writeBuf with
    | none => qos0Loop fuel nextSeq
    | some cause =>
      -- QoS 0 has no acknowledgement to resolve a publish by.
      addStalled batchMax
      abortReader config
      return some cause

def runQos0Throughput (fuel : Nat) : Gen hdr allocator (Except String Unit) := do
  match ← qos0Loop config connId fuel 0 with
  | some cause => return .error cause
  | none => disconnectAndJoin config none true

def takePermit : Gen hdr allocator Bool := do
  if (← get).permits = 0 then return false
  else
    modify fun world => { world with permits := world.permits - 1 }
    return true

def acquirePermit : (fuel : Nat) → Gen hdr allocator Bool
  | 0 => throw .unfinished
  | fuel + 1 => do
    let moment ← await config
    if ← takePermit then return true
    else if moment.elapsed then return false
    else acquirePermit fuel

def fillBatch : (room taken : Nat) → Gen hdr allocator Nat
  | 0, taken => return taken
  | room + 1, taken => do
    let _ ← observe config
    if ← takePermit then fillBatch room (taken + 1) else return taken

def encodeQos1Batch : (permits nextSeq : Nat) → Gen hdr allocator (List Publication × Nat)
  | 0, nextSeq => return ([], nextSeq)
  | permits + 1, nextSeq => do
    match ← allocate config with
    | none => return ([], nextSeq)
    | some id =>
      let now ← monotonicNowNs config
      let stamp : Stamp := ⟨connId, .ofNat nextSeq, .ofNat now⟩
      let (writeBuf, nextSeq) ← encodeQos1Batch permits (saturatingAdd nextSeq 1)
      return (⟨some id, stamp⟩ :: writeBuf, nextSeq)

def returnPermits (permits : Nat) : Gen hdr allocator Unit :=
  modify fun world => { world with permits := world.permits + permits }

def qos1Loop : (fuel nextSeq : Nat) → Gen hdr allocator (Option String)
  | 0, _ => throw .unfinished
  | fuel + 1, nextSeq => do
    if (← monotonicNowNs config) ≥ config.window.endNs then return none
    if !(← acquirePermit config fuel) then return none
    let permits ← fillBatch config (batchMax - 1) 1
    let (writeBuf, nextSeq) ← encodeQos1Batch config connId permits nextSeq
    if writeBuf.isEmpty then
      returnPermits permits
      qos1Loop fuel nextSeq
    else
      match ← writeBatch config writeBuf with
      | none => qos1Loop fuel nextSeq
      -- The batch stays in flight: a PUBACK may still resolve what was written.
      | some cause => return some cause

def runQos1Throughput (fuel : Nat) : Gen hdr allocator (Except String Unit) := do
  modify fun world => { world with permits := config.qos1Window.toNat }
  let writeFailure ← qos1Loop config connId fuel 0
  qos1DrainAndDisconnect config fuel writeFailure

end UringMqtt.Bench
