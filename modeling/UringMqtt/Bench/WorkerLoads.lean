import UringMqtt.Bench.Attempts

/-! The load of each server worker, `Recorder::worker_loads` of `bench/src/record.rs`. -/

namespace UringMqtt.Bench
open Lib

structure WorkerGroup (hdr : Hdr) where
  thread : Nat
  connections : UInt32
  delivered : Nat
  latency : Option hdr.Histogram

variable {hdr : Hdr}

def WorkerGroup.enter (self : WorkerGroup hdr) (shard : Shard hdr) : Option (WorkerGroup hdr) := do
  let latency ← match shard.latency with
    | some latency => mergeHistogram self.latency latency
    | none => some self.latency
  return { self with
    connections := self.connections + 1
    delivered := saturatingAdd self.delivered shard.delivered
    latency }

/-- The groups with the shard in that of its first thread, a new one if there is none. -/
def groupShard (groups : List (WorkerGroup hdr)) (shard : Shard hdr) : Option (List (WorkerGroup hdr)) :=
  match shard.firstThread with
  | none => some groups
  | some thread => do
    let index := groups.findIdx fun group => group.thread = thread
    let groups := if index < groups.length then groups else groups ++ [⟨thread, 0, 0, none⟩]
    let group ← groups[index]?
    let group ← group.enter shard
    return groups.set index group

def WorkerGroup.load (f64 : F64) (self : WorkerGroup hdr) : WorkerLoad where
  connections := self.connections
  delivered := self.delivered
  latencyP99Ns := self.latency.bind fun histogram => percentile f64 (hdr.buckets histogram) (f64.literal 99 2)

def WorkerLoad.before (first second : WorkerLoad) : Bool :=
  ((compare second.connections first.connections).then (compare second.delivered first.delivered)).isLE

def WorkerLoad.zero : WorkerLoad := ⟨0, 0, none⟩

/-- The run's connections by the thread of their first delivery, padded with zero entries
up to `workers`. -/
def Recorder.workerLoads (f64 : F64) (self : Recorder hdr) (workers : Nat) : Option (List WorkerLoad) := do
  let groups ← self.shards.foldlM groupShard []
  let loads := sortBy WorkerLoad.before (groups.map (WorkerGroup.load f64))
  return loads ++ List.replicate (workers - loads.length) .zero

end UringMqtt.Bench
