import UringMqtt.Bench.Disk
import UringMqtt.Lib.Text

/-! The names of a run's files as `run_record.rs`, `runner.rs` and `matrix.rs` make them,
each from the file name of a record. -/

namespace UringMqtt.Bench
open Lib

/-- `replace(".json", "")`. -/
def withoutJson (name : String) : String := String.ofList (without ".json".toList 0 name.toList)

/-- `build_minimal_record`: the fields `file_name` reads; the others are placeholders. -/
def buildMinimalRecord (f64 : F64) (spec : RunSpec) : RunRecord f64 where
  schema := schemaVersion
  profile := spec.profile
  server := spec.server
  workers := spec.workers
  qos := spec.qos
  kind := spec.kind
  offeredRate := spec.offeredRate
  repetition := spec.repetition
  attempt := spec.attempt
  connections := 0
  payloadBytes := 0
  qos1Window := 0
  warmupSecs := 0
  windowSecs := 0
  drainGraceSecs := 0
  build := .release
  originNs := 0
  window := ⟨0, 0⟩
  timeline := ⟨0, []⟩
  cyclesInWindow := none
  counts := ⟨none, none, 0, none, 0, none, 0, 0, 0, 0, 0⟩
  throughputMsgsPerSec := none
  last10sMsgsPerSec := none
  latencyNs := none
  lateness := []
  latenessP99Ns := none
  lastWriteStartNs := none
  connectionsPerSec := none
  generatorErrors := ⟨0, 0, 0, 0, 0⟩
  syscalls := ⟨.none, none, none, none, none, none, none, none⟩
  driver := none
  cpuSets := ⟨"", ""⟩
  env := ⟨"", "", "", "", false, []⟩
  cpu := none
  hostCpuPressure := none
  workerLoads := none
  startedAtUnix := 0
  harnessErrors := []
  valid := false
  invalidReasons := []
  cancelled := false

def RunSpec.stemFor (f64 : F64) (self : RunSpec) : String := withoutJson (buildMinimalRecord f64 self).fileName

namespace RunRecord
variable {f64 : F64} (self : RunRecord f64)

def temporaryName : String := self.fileName ++ ".tmp"

/-- The scratch directory `discard_scratch` removes. -/
def scratchStem : String := withoutJson self.fileName

end RunRecord
end UringMqtt.Bench
