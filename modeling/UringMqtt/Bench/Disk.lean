import UringMqtt.Bench.Attempts
import UringMqtt.Lib.Effects

/-! The output and the scratch directory of the matrix, and the calls by which a bench
process works on them. A call is one step of the file system; what it answers beyond the
state of the directories, a failure above all, is up to the environment. -/

namespace UringMqtt.Bench
open Lib

inductive Place
  | record (stem : String)
  | temporary (stem : String)
  | scratch (stem : String)
deriving DecidableEq

inductive OutName
  | record (stem : String)
  | temporary (stem : String)
deriving DecidableEq

inductive Inspection
  | present
  | absent
  | failed (error : String)
deriving DecidableEq

inductive FileError
  | alreadyExists
  | other (error : String)
deriving DecidableEq

inductive Milestone
  /-- The top of the loop of `run_configs_with_stop`. -/
  | round
  /-- `run(&spec)` is called. -/
  | dispatch (spec : RunSpec)
deriving DecidableEq

inductive DiskCall
  | mark (milestone : Milestone)
  | loadCancel
  /-- `create_dir_all` of the output directory or of the scratch root. -/
  | createDirAll
  | inspect (place : Place)
  /-- The exclusive `create_dir` of a scratch directory. -/
  | createDir (stem : String)
  /-- The rest of a run, with the harness errors it starts from. -/
  | measure (spec : RunSpec) (errors : List String)
  /-- A temporary record by `create_new`. -/
  | createNew (stem : String)
  /-- How much of a text the writer still buffers when the serializer returns. -/
  | held
  | append (inode : Nat) (byte : UInt8)
  /-- `drop` of a writer whose buffer is not empty. -/
  | dropWriter (inode : Nat) (rest : List UInt8)
  | intoInner
  | syncAll
  /-- `hard_link` of a temporary record to its final name. -/
  | hardLink (stem : String)
  /-- `remove_file` of a temporary record. -/
  | removeFile (stem : String)
  | removeDirAll (stem : String)
  | readDir
  | openFile (stem : String)
  | readFile (inode : Nat)
  | readProcStartTime (pid : UInt32)
deriving DecidableEq

inductive Halt
  | error (message : String)
  /-- The loop goes on past every budget. -/
  | endless
deriving DecidableEq

variable {f64 : F64}

@[reducible] def DiskCall.Answer (f64 : F64) : DiskCall → Type
  | .mark _ => Unit
  | .loadCancel => Bool
  | .createDirAll | .createDir _ | .append _ _ | .intoInner | .syncAll | .removeFile _ => Except String Unit
  | .inspect _ => Inspection
  | .measure _ _ => RunRecord f64
  | .createNew _ => Except FileError Nat
  | .held | .dropWriter _ _ => Nat
  | .hardLink _ => Except FileError Unit
  -- Whether the directory is gone.
  | .removeDirAll _ => Bool
  | .readDir => Except String (List OutName)
  | .openFile _ => Except String Nat
  | .readFile _ => Except String (List UInt8)
  | .readProcStartTime _ => Except String (Option Nat)

@[reducible] def diskPort (f64 : F64) : Interface := ⟨DiskCall, DiskCall.Answer f64, Halt⟩

structure Temporary where
  stem : String
  inode : Nat
  creator : Nat
deriving DecidableEq

structure ScratchDir where
  stem : String
  creator : Nat
deriving DecidableEq

/-- The two directories. A name of the output directory refers to an inode, so that a
hard link and the temporary name it was made from share one text. -/
structure Disk where
  records : List (String × Nat)
  temporaries : List Temporary
  scratch : List ScratchDir
  inodes : List (List UInt8)
deriving DecidableEq

namespace Disk

def hasRecord (self : Disk) (stem : String) : Bool := self.records.any (·.1 = stem)

def hasTemporary (self : Disk) (stem : String) : Bool := self.temporaries.any (·.stem = stem)

def hasScratch (self : Disk) (stem : String) : Bool := self.scratch.any (·.stem = stem)

def holds (self : Disk) : Place → Bool
  | .record stem => self.hasRecord stem
  | .temporary stem => self.hasTemporary stem
  | .scratch stem => self.hasScratch stem

def names (self : Disk) : List OutName := self.records.map (.record ·.1) ++ self.temporaries.map (.temporary ·.stem)

def write (self : Disk) (inode : Nat) (bytes : List UInt8) : Disk :=
  { self with inodes := self.inodes.modify inode (· ++ bytes) }

end Disk

def keyOf (spec : RunSpec) : ConfigKey := ⟨spec.server, spec.workers, spec.qos, spec.kind, spec.offeredRate⟩

/-- `replace(".json", "")` takes off the suffix: a stem holds no dot. -/
def stemFor (spec : RunSpec) : String := (keyOf spec).stem spec.attempt spec.repetition

/-- A record of `spec`'s run that starts from `errors`. -/
def Measured (spec : RunSpec) (errors : List String) (record : RunRecord f64) : Prop :=
  record.key = keyOf spec ∧ record.attempt = spec.attempt ∧ record.repetition = spec.repetition ∧
    errors <+: record.harnessErrors

instance (spec : RunSpec) (errors : List String) (record : RunRecord f64) : Decidable (Measured spec errors record) :=
  inferInstanceAs (Decidable (_ ∧ _ ∧ _ ∧ _))

/-- What the directories become by a call of process `pid` that is answered so. -/
def Disk.respond (pid : Nat) : Respond (diskPort f64) Disk
  | .inspect place, .present, disk => if disk.holds place then some disk else none
  | .inspect place, .absent, disk => if disk.holds place then none else some disk
  | .createDir stem, .ok (), disk =>
    if disk.hasScratch stem then none else some { disk with scratch := disk.scratch ++ [⟨stem, pid⟩] }
  | .measure spec errors, record, disk => if Measured spec errors record then some disk else none
  | .createNew stem, .ok inode, disk =>
    if disk.hasTemporary stem || inode ≠ disk.inodes.length then none
    else some { disk with temporaries := disk.temporaries ++ [⟨stem, inode, pid⟩], inodes := disk.inodes ++ [[]] }
  | .createNew stem, .error .alreadyExists, disk => if disk.hasTemporary stem then some disk else none
  | .append inode byte, .ok (), disk => some (disk.write inode [byte])
  | .dropWriter inode rest, written, disk => some (disk.write inode (rest.take written))
  | .hardLink stem, .ok (), disk =>
    if disk.hasRecord stem then none
    else (disk.temporaries.find? (·.stem = stem)).map fun found =>
      { disk with records := disk.records ++ [(stem, found.inode)] }
  | .hardLink stem, .error .alreadyExists, disk => if disk.hasRecord stem then some disk else none
  | .removeFile stem, .ok (), disk =>
    if disk.hasTemporary stem then some { disk with temporaries := disk.temporaries.filter (·.stem ≠ stem) } else none
  | .removeDirAll stem, true, disk => some { disk with scratch := disk.scratch.filter (·.stem ≠ stem) }
  | .readDir, .ok names, disk => if names.Perm disk.names then some disk else none
  | .openFile stem, .ok inode, disk => if (stem, inode) ∈ disk.records then some disk else none
  | .readFile inode, .ok text, disk => if disk.inodes[inode]? = some text then some disk else none
  | .mark _, _, disk | .loadCancel, _, disk | .createDirAll, _, disk | .held, _, disk | .intoInner, _, disk
  | .syncAll, _, disk | .readProcStartTime _, _, disk => some disk
  | .inspect _, .failed _, disk | .createDir _, .error _, disk | .createNew _, .error (.other _), disk
  | .append _ _, .error _, disk | .hardLink _, .error (.other _), disk | .removeFile _, .error _, disk
  | .removeDirAll _, false, disk | .readDir, .error _, disk | .openFile _, .error _, disk | .readFile _, .error _, disk =>
    some disk

end UringMqtt.Bench
