import UringMqtt.Bench.Payload
import UringMqtt.Lib.Bitset
import UringMqtt.Lib.Saturating

/-! The delivery recorder of a benchmark endpoint, `bench/src/record.rs`. One shard
per connection, each behind its own lock, so a call is one step. `none` is a panic. -/

namespace UringMqtt.Bench
open Lib

/-- hdrhistogram with the recorder's bounds. The crate is not part of the repository,
so it is a parameter; `record` and `add` fail on what the bounds exclude. -/
structure Hdr where
  Histogram : Type
  new : Histogram
  record : Histogram → Nat → Option Histogram
  add : Histogram → Histogram → Option Histogram
  /-- The recorded buckets with their counts, ascending. -/
  buckets : Histogram → List (Nat × Nat)

def latencyMaxNs : Nat := 60000000000

def armOriginSkewMaxNs : Nat := 60000000000

def windowMaxSpanNs : Nat := 3600000000000

def seqChunkWords : Nat := 8

def seqChunkSeqs : Nat := seqChunkWords * 64

def oneSecondNs : Nat := 1000000000

structure Window where
  startNs : Nat
  endNs : Nat
deriving DecidableEq

namespace Window

def contains (self : Window) (ns : Nat) : Bool := decide (self.startNs ≤ ns) && decide (ns < self.endNs)

def startSec (self : Window) : Nat := self.startNs / oneSecondNs

def endSec (self : Window) : Nat := self.endNs / oneSecondNs

end Window

structure Timeline where
  originSec : Nat
  counts : List Nat
deriving DecidableEq

structure DeliveryReport where
  delivered : Nat
  duplicates : Nat
  foreign : Nat
  latencyOverRange : Nat
  clockAnomalies : Nat
  dropped : Option Nat
  timeline : Timeline
  latency : List (Nat × Nat)
deriving DecidableEq

abbrev Chunk := Vector (BitVec 64) seqChunkWords

structure Shard (hdr : Hdr) where
  seen : Nat → Option Chunk
  delivered : Nat
  duplicates : Nat
  overRange : Nat
  anomalies : Nat
  timelineOriginSec : Option Nat
  timeline : List Nat
  latency : Option hdr.Histogram
  firstThread : Option Nat

def resized (counts : List Nat) (length : Nat) : List Nat := counts ++ List.replicate (length - counts.length) 0

namespace Shard
variable {hdr : Hdr}

def new : Shard hdr := ⟨fun _ => none, 0, 0, 0, 0, none, [], none, none⟩

theorem chunk_word_inside (seq : Nat) : seq % seqChunkSeqs / 64 < seqChunkWords := by
  unfold seqChunkSeqs seqChunkWords
  omega

def setSeqBit (self : Shard hdr) (seq : Nat) : Bool × Shard hdr :=
  let chunk := seq / seqChunkSeqs
  let offset := seq % seqChunkSeqs
  let index : Fin seqChunkWords := ⟨offset / 64, chunk_word_inside seq⟩
  let mask := Bitset.mask 64 (offset % 64)
  let words := (self.seen chunk).getD (Vector.replicate seqChunkWords 0)
  let entered (words : Chunk) : Shard hdr :=
    { self with seen := fun other => if other = chunk then some words else self.seen other }
  if words[index] &&& mask ≠ 0 then (true, entered words)
  else (false, entered (words.set index (words[index] ||| mask)))

def bumpTimeline (self : Shard hdr) (nowNs originSec : Nat) : Shard hdr :=
  let nowSec := nowNs / oneSecondNs
  let base := self.timelineOriginSec.getD originSec
  -- A delivery before the armed origin grows the timeline downwards.
  let grown := if nowSec < base then List.replicate (base - nowSec) 0 ++ self.timeline else self.timeline
  let base := min base nowSec
  let index := nowSec - base
  { self with
    timelineOriginSec := some base
    timeline := (resized grown (index + 1)).modify index (saturatingAdd · 1) }

def countFirst (self : Shard hdr) (stamp : Stamp) (originSec : Nat) (window : Window) (nowNs : Nat) :
    Option (Shard hdr) :=
  let counted := { self with delivered := saturatingAdd self.delivered 1 }.bumpTimeline nowNs originSec
  let scheduledNs := stamp.scheduledNs.toNat
  if scheduledNs > nowNs then some { counted with anomalies := saturatingAdd counted.anomalies 1 }
  else if window.contains scheduledNs then
    let latency := nowNs - scheduledNs
    if latency > latencyMaxNs then some { counted with overRange := saturatingAdd counted.overRange 1 }
    else do
      let histogram ← hdr.record (counted.latency.getD hdr.new) (max latency 1)
      return { counted with latency := some histogram }
  else some counted

/-- What `record` does under the shard's lock. -/
def accept (self : Shard hdr) (stamp : Stamp) (originSec : Nat) (window : Window) (nowNs thread : Nat) :
    Option (Shard hdr) :=
  let owned := { self with firstThread := some (self.firstThread.getD thread) }
  match owned.setSeqBit stamp.seq.toNat with
  | (true, seen) => some { seen with duplicates := saturatingAdd seen.duplicates 1 }
  | (false, seen) => seen.countFirst stamp originSec window nowNs

end Shard

structure Recorder (hdr : Hdr) where
  armed : Option (Nat × Window)
  shards : List (Shard hdr)
  /-- An `AtomicU64`; it cannot wrap in fewer than 2^64 deliveries. -/
  foreign : Nat

def mergeHistogram {hdr : Hdr} (target : Option hdr.Histogram) (latency : hdr.Histogram) :
    Option (Option hdr.Histogram) :=
  match target with
  | some histogram => (hdr.add histogram latency).map some
  | none => some (some latency)

def mergeTimeline (originSec : Nat) (timeline : List Nat) (shard : Nat × List Nat) : List Nat :=
  let offset := shard.1 - originSec
  shard.2.zipIdx.foldl (fun row entry => row.modify (offset + entry.2) (saturatingAdd · entry.1))
    (resized timeline (offset + shard.2.length))

namespace Recorder
variable {hdr : Hdr}

def new (hdr : Hdr) (connections : UInt32) : Recorder hdr := ⟨none, List.replicate connections.toNat .new, 0⟩

def skew (one two : Nat) : Nat := max one two - min one two

def armAt (self : Recorder hdr) (originNs : Nat) (window : Window) (nowNs : Nat) : Except String (Recorder hdr) :=
  if skew originNs nowNs > armOriginSkewMaxNs then
    .error s!"origin {originNs} is more than {armOriginSkewMaxNs} ns from the clock {nowNs}"
  else if window.startNs < originNs then
    .error s!"window start {window.startNs} precedes origin {originNs}"
  else if window.startNs ≥ window.endNs then
    .error s!"window start {window.startNs} is not before its end {window.endNs}"
  else if window.endNs - originNs > windowMaxSpanNs then
    .error s!"window end {window.endNs} is more than {windowMaxSpanNs} ns after origin {originNs}"
  else match self.armed with
    | some _ => .error "recorder already armed"
    | none => .ok { self with armed := some (originNs / oneSecondNs, window) }

def noteForeign (self : Recorder hdr) : Recorder hdr := { self with foreign := self.foreign + 1 }

def record (self : Recorder hdr) (payload : Bytes) (nowNs thread : Nat) : Option (Recorder hdr) :=
  match self.armed with
  | none => some self.noteForeign
  | some (originSec, window) =>
    match Stamp.decode payload with
    | none => some self.noteForeign
    | some stamp =>
      match self.shards[stamp.connId.toNat]? with
      | none => some self.noteForeign
      | some shard => do
        let shard ← shard.accept stamp originSec window nowNs thread
        return { self with shards := self.shards.set stamp.connId.toNat shard }

def recordOnTopic (self : Recorder hdr) (on : String) (payload : Bytes) (nowNs thread : Nat) : Option (Recorder hdr) :=
  if on = topic then self.record payload nowNs thread else some self.noteForeign

def report (self : Recorder hdr) : Option DeliveryReport := do
  let total (count : Shard hdr → Nat) := self.shards.foldl (fun sum shard => saturatingAdd sum (count shard)) 0
  let timelines := self.shards.filterMap fun shard => shard.timelineOriginSec.map (·, shard.timeline)
  let merged ← (self.shards.filterMap Shard.latency).foldlM mergeHistogram none
  let armedOriginSec := (self.armed.map Prod.fst).getD 0
  let originSec := (timelines.map Prod.fst).min?.getD armedOriginSec
  return {
    delivered := total Shard.delivered
    duplicates := total Shard.duplicates
    foreign := self.foreign
    latencyOverRange := total Shard.overRange
    clockAnomalies := total Shard.anomalies
    dropped := none
    timeline := ⟨originSec, timelines.foldl (mergeTimeline originSec) []⟩
    latency := (merged.map hdr.buckets).getD [] }

end Recorder
end UringMqtt.Bench
