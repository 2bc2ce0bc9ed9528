import UringMqtt.Bench.Disk

/-! How a bench process writes its records and reads them back, `bench/src/matrix.rs`,
and the scratch directory of a run, `bench/src/runner.rs`. -/

namespace UringMqtt.Bench
open Lib Program

variable {f64 : F64}

abbrev Fs (f64 : F64) (α : Type) : Type := Program (diskPort f64) α

abbrev ask (op : DiskCall) : Fs f64 (op.Answer f64) := @perform (diskPort f64) op

structure Json (f64 : F64) where
  toWriterPretty : RunRecord f64 → List UInt8
  fromReader : List UInt8 → Except String (RunRecord f64)

structure Dirs where
  out : String
  scratch : String

def refuse {α : Type} (message : String) : Fs f64 α := .fail (.error message)

def orRefuse {α : Type} (describe : String → String) : Except String α → Fs f64 α
  | .ok value => pure value
  | .error error => refuse (describe error)

namespace Dirs

def path (self : Dirs) (stem : String) : String := s!"{self.out}/{stem}.json"

def tmp (self : Dirs) (stem : String) : String := s!"{self.out}/{stem}.json.tmp"

end Dirs

/-! ### Writing -/

def appendAll (inode : Nat) : List UInt8 → Fs f64 (Except (String × List UInt8) Unit)
  | [] => pure (.ok ())
  | byte :: rest => do
    match ← ask (.append inode byte) with
    | .ok () => appendAll inode rest
    | .error error => pure (.error (error, byte :: rest))

def abandon {α : Type} (stem : String) (inode : Nat) (rest : List UInt8) (message : String) : Fs f64 α := do
  let _ ← ask (.dropWriter inode rest)
  let _ ← ask (.removeFile stem)
  refuse message

/-- The end of `write_record`: the synced temporary file gets its final name. -/
def publish (dirs : Dirs) (stem : String) : Fs f64 Unit := do
  let linked ← ask (.hardLink stem)
  -- A temporary name that stays behind is reported on stderr only.
  let _cleaned ← ask (.removeFile stem)
  match linked with
  | .ok () => pure ()
  | .error .alreadyExists => refuse s!"record {dirs.path stem} already exists; refusing to overwrite it"
  | .error (.other error) => refuse s!"link {dirs.tmp stem} to {dirs.path stem}: {error}"

def writeThrough (dirs : Dirs) (stem : String) (text : List UInt8) (inode : Nat) : Fs f64 Unit := do
  let held ← ask .held
  let early := text.length - held
  match ← appendAll inode (text.take early) with
  | .error (error, rest) => abandon stem inode (rest ++ text.drop early) s!"write {dirs.tmp stem}: {error}"
  | .ok () =>
    match ← appendAll inode (text.drop early) with
    | .error (error, rest) => abandon stem inode rest s!"flush {dirs.tmp stem}: {error}"
    | .ok () =>
      match ← ask .intoInner with
      | .error error => refuse s!"flush {dirs.tmp stem}: {error}"
      | .ok () =>
        match ← ask .syncAll with
        | .error error => do
          let _ ← ask (.removeFile stem)
          refuse s!"sync {dirs.tmp stem}: {error}"
        | .ok () => publish dirs stem

def writeRecord (json : Json f64) (dirs : Dirs) (record : RunRecord f64) : Fs f64 Unit := do
  match ← ask (.createNew record.stem) with
  | .error .alreadyExists => refuse s!"temporary record {dirs.tmp record.stem} already exists; refusing to write through it"
  | .error (.other error) => refuse s!"create {dirs.tmp record.stem}: {error}"
  | .ok inode => writeThrough dirs record.stem (json.toWriterPretty record) inode

/-! ### Reading -/

def readRecord (json : Json f64) (dirs : Dirs) (stem : String) : Fs f64 (RunRecord f64) := do
  let inode ← orRefuse (s!"open {dirs.path stem}: {·}") (← ask (.openFile stem))
  let text ← orRefuse (s!"parse {dirs.path stem}: {·}") (← ask (.readFile inode))
  let record ← orRefuse (s!"parse {dirs.path stem}: {·}") (json.fromReader text)
  if record.schema ≠ schemaVersion then
    refuse s!"{dirs.path stem}: record schema {record.schema} != {schemaVersion}"
  else if stem ++ ".json" ≠ record.fileName then
    refuse s!"{dirs.path stem}: file name does not match its record, which names {record.fileName}"
  else pure record

def readEntries (json : Json f64) (dirs : Dirs) : List OutName → Fs f64 (List (RunRecord f64))
  | [] => pure []
  | .temporary _ :: rest => readEntries json dirs rest
  | .record stem :: rest => do
    let record ← readRecord json dirs stem
    let records ← readEntries json dirs rest
    pure (record :: records)

def readRecords (json : Json f64) (dirs : Dirs) : Fs f64 (List (RunRecord f64)) := do
  let entries ← orRefuse (s!"read dir {dirs.out}: {·}") (← ask .readDir)
  readEntries json dirs entries

/-! ### The scratch directory -/

def scratchReusedPrefix : String := "scratch directory reused: "

/-- `run_one`: a run whose scratch directory exists already measures nothing. -/
def runOne (dirs : Dirs) (spec : RunSpec) : Fs f64 (RunRecord f64) := do
  ask (.mark (.dispatch spec))
  let errors := match ← ask .createDirAll with
    | .ok () => []
    | .error error => [s!"create scratch dir: {error}"]
  match ← ask (.createDir (stemFor spec)) with
  | .ok () => ask (.measure spec errors)
  | .error _ => ask (.measure spec (errors ++ [scratchReusedPrefix ++ s!"{dirs.scratch}/{stemFor spec}"]))

def createdOwnScratch (record : RunRecord f64) : Bool :=
  !record.harnessErrors.any fun error => startsWith error scratchReusedPrefix

def discardScratch (record : RunRecord f64) : Fs f64 Unit := do
  let _ ← ask (.removeDirAll record.stem)
  pure ()

def firstPresent (describe : Place → String) : List Place → Fs f64 (Option Place)
  | [] => pure none
  | place :: rest => do
    match ← ask (.inspect place) with
    | .present => pure (some place)
    | .absent => firstPresent describe rest
    | .failed error => refuse s!"inspect {describe place}: {error}"

def placesOf (spec : RunSpec) (repetition : UInt32) : List Place :=
  let stem := stemFor { spec with repetition }
  [.record stem, .temporary stem, .scratch stem]

def Dirs.describe (self : Dirs) : Place → String
  | .record stem => self.path stem
  | .temporary stem => self.tmp stem
  | .scratch stem => s!"{self.scratch}/{stem}"

def attemptInUse (dirs : Dirs) (spec : RunSpec) (repetitions : UInt32) : Fs f64 (Option Place) :=
  firstPresent dirs.describe ((repetitionRange repetitions).flatMap (placesOf spec))

end UringMqtt.Bench
