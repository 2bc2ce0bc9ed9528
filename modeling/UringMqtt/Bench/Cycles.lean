import UringMqtt.Bench.Connection

/-! A connection task of a connections run, `run_connections_mode` in `bench/src/gen.rs`:
it opens and closes one connection after the other and starts no reader. -/

namespace UringMqtt.Bench
open Lib

inductive CloseRead
  | fin
  | byte
  /-- A reset or an abort by the peer. -/
  | ends
  | fails
deriving DecidableEq

inductive CloseOutcome
  | closed (unexpected : Nat)
  | reset (unexpected : Nat)
  | failed
deriving DecidableEq

def closeOutcome (unexpected : Nat) : List CloseRead → Option CloseOutcome
  | [] => none
  | .fin :: _ => some (.closed unexpected)
  | .byte :: rest => closeOutcome (saturatingAdd unexpected 1) rest
  | .ends :: _ => some (.reset unexpected)
  | .fails :: _ => some .failed

structure CycleMoment where
  nowNs : Nat
  /-- Whether what was asked for came about in time. -/
  done : Bool
  connack : Option (Vector UInt8 4)
  reads : List CloseRead
  /-- The task is cancelled at its next await. -/
  aborted : Bool

structure CycleWorld where
  env : Nat → CycleMoment
  tick : Nat
  counters : Counters
  cycles : Nat

abbrev Cycles := EStateM Stop CycleWorld

def CycleWorld.spawned (env : Nat → CycleMoment) : CycleWorld := ⟨env, 0, ⟨0, 0, 0, 0, 0, 0, 0, 0⟩, 0⟩

namespace Cycles

def observe : Cycles CycleMoment := do
  let world ← get
  set { world with tick := world.tick + 1 }
  return world.env world.tick

def await : Cycles CycleMoment := do
  let moment ← observe
  if moment.aborted then throw .aborted
  return moment

def addConnectErrors : Cycles Unit :=
  modify fun world => { world with counters.connectErrors := world.counters.connectErrors + 1 }

def addProtocolErrors : Cycles Unit :=
  modify fun world => { world with counters.protocolErrors := world.counters.protocolErrors + 1 }

def addCycles : Cycles Unit := modify fun world => { world with cycles := world.cycles + 1 }

/-- From DISCONNECT on: the broker has to close first and to send nothing more. -/
def leave : Cycles Unit := do
  if !(← await).done then addProtocolErrors
  else
    match closeOutcome 0 (← await).reads with
    | some (.closed 0) | some (.reset 0) => return ()
    | some (.closed _) | some (.reset _) | some .failed | none => addProtocolErrors

def accepted : Vector UInt8 4 := #v[0x20, 0x02, 0x00, 0x00]

/-- One cycle: connect, set the socket up, send CONNECT, take the CONNACK. -/
def cycle (config : GenConfig) : Cycles Unit := do
  if !(← await).done then addConnectErrors
  else if !(← observe).done then addConnectErrors
  else if !(← await).done then addConnectErrors
  else
    match (← await).connack with
    | none => addConnectErrors
    | some connack =>
      let connackAt := (← observe).nowNs
      if connack ≠ accepted then addProtocolErrors
      else
        if config.window.contains connackAt then addCycles
        leave

def runConnectionsMode (config : GenConfig) : (fuel : Nat) → Cycles Unit
  | 0 => throw .unfinished
  | fuel + 1 => do
    if (← observe).nowNs ≥ config.window.endNs then return ()
    cycle config
    runConnectionsMode config fuel

end Cycles
end UringMqtt.Bench
