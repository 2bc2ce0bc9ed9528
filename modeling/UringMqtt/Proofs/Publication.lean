import UringMqtt.Bench.Matrix

/-! Bench processes beside each other on one output directory. Each process knows the
temporary record it is writing and the scratch directories it created; what it appends
to, links and removes is among them, whatever the others do and wherever they are killed. -/

namespace UringMqtt.Bench
open Lib Program

variable {f64 : F64}

/-- The temporary record a process has created, with what it has written. -/
structure OwnTemporary where
  stem : String
  inode : Nat
  text : List UInt8
  linked : Bool

/-- What a process knows of the directories by its own calls. -/
structure Holding where
  temporary : Option OwnTemporary
  scratch : List String
  opened : Option (String × Nat)

namespace Holding

def empty : Holding := ⟨none, [], none⟩

def write (self : Holding) (bytes : List UInt8) : Holding :=
  { self with temporary := self.temporary.map fun own => { own with text := own.text ++ bytes } }

def see : Respond (diskPort f64) Holding
  | .createDir stem, .ok (), view => some { view with scratch := stem :: view.scratch }
  | .measure spec errors, record, view => if Measured spec errors record then some view else none
  | .createNew stem, .ok inode, view => some { view with temporary := some ⟨stem, inode, [], false⟩ }
  | .append _ byte, .ok (), view => some (view.write [byte])
  | .dropWriter _ rest, written, view => some (view.write (rest.take written))
  | .hardLink _, .ok (), view => some { view with temporary := view.temporary.map fun own => { own with linked := true } }
  | .removeFile _, .ok (), view => some { view with temporary := none }
  | .removeDirAll stem, true, view => some { view with scratch := view.scratch.filter (· ≠ stem) }
  | .openFile stem, .ok inode, view => some { view with opened := some (stem, inode) }
  | _, _, view => some view

def Writes (self : Holding) (inode : Nat) : Prop := ∃ own, self.temporary = some own ∧ own.inode = inode ∧ own.linked = false

def Complete (json : Json f64) (self : Holding) (stem : String) : Prop :=
  ∃ own record, self.temporary = some own ∧ own.stem = stem ∧ RunRecord.stem record = stem ∧ own.text = json.toWriterPretty record

def Allows (json : Json f64) (view : Holding) (op : DiskCall) (_ : op.Answer f64) (_ : Holding) : Prop :=
  match op with
  | .append inode _ | .dropWriter inode _ => view.Writes inode
  | .hardLink stem => view.Complete json stem
  | .removeFile stem => ∃ own, view.temporary = some own ∧ own.stem = stem
  | .removeDirAll stem => stem ∈ view.scratch
  | .readFile inode => ∃ stem, view.opened = some (stem, inode)
  | _ => True

end Holding

/-! ### The programs keep to what they hold -/

/-- `program` keeps to its rules from whatever a process holds. -/
def KeepsOwn (json : Json f64) {α : Type} (program : Fs f64 α) : Prop :=
  ∀ view, Holds Holding.see (Holding.Allows json) (fun _ _ => True) (fun _ _ => True) program view

namespace KeepsOwn
variable {json : Json f64} {α β : Type}

theorem pure (value : α) : KeepsOwn json (Pure.pure value : Fs f64 α) := fun _ => trivial

theorem fail (halt : Halt) : KeepsOwn json (.fail halt : Fs f64 α) := fun _ => trivial

theorem bind {program : Fs f64 α} {rest : α → Fs f64 β} (first : KeepsOwn json program) (then' : ∀ value, KeepsOwn json (rest value)) :
    KeepsOwn json (program >>= rest) := fun view =>
  .bind ((first view).mono (fun after value _ => then' value after) fun _ _ _ => trivial)

theorem ask (op : DiskCall) (free : ∀ view answer after, Holding.Allows json view op answer after) :
    KeepsOwn json (Bench.ask op : Fs f64 _) := fun _ _ _ _ => ⟨free _ _ _, trivial⟩

theorem orRefuse (describe : String → String) (result : Except String α) : KeepsOwn json (Bench.orRefuse describe result : Fs f64 α) := by
  cases result with
  | ok value => exact pure value
  | error error => exact fail _

end KeepsOwn

section Writing
variable {json : Json f64} {view : Holding}

/-- The process holds this temporary record, and the scratch directories it held. -/
def Owns (before : Holding) (stem : String) (inode : Nat) (text : List UInt8) (view : Holding) : Prop :=
  view.temporary = some ⟨stem, inode, text, false⟩ ∧ view.scratch = before.scratch

theorem Owns.write {before : Holding} {stem : String} {inode : Nat} {text bytes : List UInt8}
    (owns : Owns before stem inode text view) : Owns before stem inode (text ++ bytes) (view.write bytes) := by
  obtain ⟨own, scratch⟩ := owns
  exact ⟨by rw [Holding.write, own]; rfl, scratch⟩

variable {before : Holding} {stops : Holding → Halt → Prop} {α : Type} {post : Holding → α → Prop} {dirs : Dirs}
  {record : RunRecord f64}

theorem Owns.writes {stem : String} {inode : Nat} {text : List UInt8} (owns : Owns before stem inode text view) :
    view.Writes inode := ⟨_, owns.1, rfl, rfl⟩

/-- The outcome of writing `bytes`: all of them, or a part at an error. -/
def Appended (before : Holding) (stem : String) (inode : Nat) (text : List UInt8) (view : Holding) :
    Except (String × List UInt8) Unit → Prop
  | .ok () => Owns before stem inode text view
  | .error _ => ∃ part, Owns before stem inode part view

private theorem appendAll_keeps {stem : String} {inode : Nat} {text bytes : List UInt8} (owns : Owns before stem inode text view) :
    Holds Holding.see (Holding.Allows json) (Appended before stem inode (text ++ bytes)) stops
      (appendAll inode bytes : Fs f64 _) view := by
  induction bytes generalizing text view with
  | nil =>
    rw [List.append_nil]
    exact owns
  | cons byte rest ih =>
    refine .perform_bind fun answer after seen => ⟨owns.writes, ?_⟩
    rcases answer with error | ⟨⟩
    · cases seen
      exact ⟨text, owns⟩
    · cases seen
      rw [List.append_cons]
      exact ih owns.write

theorem removeFile_keeps {stem : String} {rest : Except String Unit → Fs f64 α}
    (own : ∃ own, view.temporary = some own ∧ own.stem = stem) (scratch : view.scratch = before.scratch)
    (goes : ∀ answer after, after.scratch = before.scratch → Holds Holding.see (Holding.Allows json) post stops (rest answer) after) :
    Holds Holding.see (Holding.Allows json) post stops (ask (.removeFile stem) >>= rest) view := by
  refine .perform_bind fun answer after seen => ⟨own, ?_⟩
  rcases answer with error | ⟨⟩
  all_goals
    cases seen
    exact goes _ _ scratch

private theorem abandon_keeps {stem : String} {inode : Nat} {text rest : List UInt8} {message : String}
    (owns : Owns before stem inode text view) :
    Holds Holding.see (Holding.Allows json) post (fun after _ => after.scratch = before.scratch)
      (abandon stem inode rest message : Fs f64 α) view := by
  refine .perform_bind fun written after seen => ⟨owns.writes, ?_⟩
  cases seen
  have more := @Owns.write _ _ _ _ _ (rest.take written) owns
  exact removeFile_keeps ⟨_, more.1, rfl⟩ more.2 fun _ _ same => same

private theorem publish_keeps {inode : Nat} (owns : Owns before record.stem inode (json.toWriterPretty record) view) :
    Holds Holding.see (Holding.Allows json) (fun after _ => after.scratch = before.scratch)
      (fun after _ => after.scratch = before.scratch) (publish dirs record.stem : Fs f64 Unit) view := by
  refine .perform_bind fun linked after seen => ⟨⟨_, record, owns.1, rfl, rfl, rfl⟩, ?_⟩
  rcases linked with (_ | _) | ⟨⟩
  all_goals
    cases seen
    refine removeFile_keeps (by simp [owns.1]) owns.2 fun _ _ same => same

private theorem writeThrough_keeps {inode : Nat} (owns : Owns before record.stem inode [] view) :
    Holds Holding.see (Holding.Allows json) (fun after _ => after.scratch = before.scratch)
      (fun after _ => after.scratch = before.scratch)
      (writeThrough dirs record.stem (json.toWriterPretty record) inode : Fs f64 Unit) view := by
  refine .perform_bind fun held after seen => ⟨trivial, ?_⟩
  cases seen
  refine .bind ((appendAll_keeps owns).mono (fun after result appended => ?_) fun _ _ same => same)
  rcases result with ⟨error, rest⟩ | ⟨⟩
  · obtain ⟨_, owns⟩ := appended
    exact abandon_keeps owns
  refine .bind ((appendAll_keeps appended).mono (fun after result appended => ?_) fun _ _ same => same)
  rcases result with ⟨error, rest⟩ | ⟨⟩
  · obtain ⟨_, owns⟩ := appended
    exact abandon_keeps owns
  rw [Appended, List.nil_append, List.take_append_drop] at appended
  refine .perform_bind fun inner after seen => ⟨trivial, ?_⟩
  rcases inner with error | ⟨⟩
  · cases seen
    exact appended.2
  cases seen
  refine .perform_bind fun synced after seen => ⟨trivial, ?_⟩
  rcases synced with error | ⟨⟩
  · cases seen
    exact removeFile_keeps ⟨_, appended.1, rfl⟩ appended.2 fun _ _ same => same
  cases seen
  exact publish_keeps appended

private theorem writeRecord_keeps :
    Holds Holding.see (Holding.Allows json) (fun after _ => after.scratch = view.scratch)
      (fun after _ => after.scratch = view.scratch) (writeRecord json dirs record) view := by
  refine .perform_bind fun answer after seen => ⟨trivial, ?_⟩
  rcases answer with (_ | error) | inode
  · cases seen
    exact rfl
  · cases seen
    exact rfl
  · cases seen
    exact writeThrough_keeps ⟨rfl, rfl⟩

end Writing

/-! ### A run and the rest of a session -/

private theorem startsWith_append (start rest : String) : startsWith (start ++ rest) start = true := by
  simp [startsWith]

variable {spec : RunSpec} {errors : List String} {record : RunRecord f64}

private theorem reused_not_created {rest : String}
    (measured : Measured spec (errors ++ [scratchReusedPrefix ++ rest]) record) : createdOwnScratch record = false := by
  obtain ⟨_, _, _, more, same⟩ := measured
  simp [createdOwnScratch, ← same, startsWith_append]

theorem measured_runOneWith (observed : Observed) (ended : GuardedEnd) (survivors : List String)
    (from_ : errors <+: observed.harnessErrors) :
    Measured observed.spec errors (runOneWith observed ended survivors : RunRecord f64) := by
  have guarded : Measured observed.spec errors (runGuarded observed ended : RunRecord f64) := by
    cases ended <;> exact ⟨rfl, rfl, rfl, from_⟩
  unfold runOneWith recordSurvivors
  split
  · exact guarded
  · exact ⟨guarded.1, guarded.2.1, guarded.2.2.1, guarded.2.2.2.trans (List.prefix_append ..)⟩

private theorem Measured.stem (measured : Measured spec errors record) :
    record.stem = stemFor spec := by
  obtain ⟨key, attempt, repetition, _⟩ := measured
  rw [RunRecord.stem, key, attempt, repetition, stemFor]

section Session
variable {json : Json f64} {view : Holding}

/-- What a process holds after a run: the scratch directory, unless the record says that
it was there before. -/
def RanIn (spec : RunSpec) (view : Holding) (record : RunRecord f64) : Prop :=
  record.stem = stemFor spec ∧ (createdOwnScratch record → stemFor spec ∈ view.scratch)

variable {spec : RunSpec} {stops : Holding → Halt → Prop} {record : RunRecord f64} {stop : ConfigKey → Fs f64 (Option String)}

private theorem measure_keeps {errors : List String}
    (owned : ∀ record : RunRecord f64, Measured spec errors record → createdOwnScratch record → stemFor spec ∈ view.scratch) :
    Holds Holding.see (Holding.Allows json) (RanIn spec) stops (ask (.measure spec errors) : Fs f64 _) view := by
  refine .perform fun record after seen => ⟨trivial, ?_⟩
  have measured : Measured spec errors record := by
    by_contra not
    simp [Holding.see, not] at seen
  have same : view = after := by simpa [Holding.see, measured] using seen
  exact ⟨measured.stem, same ▸ owned record measured⟩

private theorem runOne_keeps {dirs : Dirs} :
    Holds Holding.see (Holding.Allows json) (RanIn spec) stops (runOne dirs spec : Fs f64 _) view := by
  refine .perform_bind fun _ after seen => ⟨trivial, ?_⟩
  cases seen
  refine .perform_bind fun root after seen => ⟨trivial, ?_⟩
  cases seen
  refine .perform_bind fun created after seen => ⟨trivial, ?_⟩
  rcases created with error | ⟨⟩
  · cases seen
    refine measure_keeps fun record measured created => ?_
    rw [reused_not_created measured] at created
    exact nomatch created
  · cases seen
    exact measure_keeps fun _ _ _ => List.mem_cons_self

private theorem discardScratch_keeps {post : Holding → Unit → Prop} (owned : record.stem ∈ view.scratch) (ends : ∀ after, post after ()) :
    Holds Holding.see (Holding.Allows json) post stops (discardScratch record) view :=
  .perform_bind fun _ _ _ => ⟨owned, ends _⟩

private theorem writeFailed_keeps {α : Type} {halt : Halt}
    (owned : createdOwnScratch record → record.stem ∈ view.scratch) {post : Holding → α → Prop} :
    Holds Holding.see (Holding.Allows json) post (fun _ _ => True) (writeFailed record halt : Fs f64 α) view := by
  unfold writeFailed
  split
  · rename_i created
    exact .bind (discardScratch_keeps (owned created) fun _ => trivial)
  · exact trivial

private theorem dispatch_keeps (dirs : Dirs) (spec : RunSpec) : KeepsOwn json (dispatch json dirs spec) := by
  intro view
  refine .perform_bind fun cancelled after seen => ⟨trivial, ?_⟩
  cases cancelled with
  | true => exact trivial
  | false =>
    refine runOne_keeps.andThen fun after record ran => ?_
    refine .perform_bind fun cancelled later seen => ⟨trivial, ?_⟩
    cases seen
    refine .bind (.attempt (writeRecord_keeps.mono (fun final _ scratch => ?_) fun final halt scratch => ?_))
    · dsimp only
      cases survivorStop { record with cancelled } with
      | some stop => exact trivial
      | none => cases cancelled <;> exact trivial
    · exact writeFailed_keeps fun created => scratch ▸ ran.1 ▸ ran.2 created

private theorem dispatchAll_keeps (dirs : Dirs) (runs : List (RunSpec × UInt32)) : KeepsOwn json (dispatchAll json dirs runs) := by
  induction runs with
  | nil => exact .pure _
  | cons run rest ih => exact (dispatch_keeps dirs _).bind fun _ => ih.bind fun _ => .pure _

private theorem readRecord_keeps (dirs : Dirs) (stem : String) : KeepsOwn json (readRecord json dirs stem) := by
  intro view
  refine .perform_bind fun opened after seen => ⟨trivial, ?_⟩
  rcases opened with error | inode
  · exact trivial
  cases seen
  refine .perform_bind fun text after seen => ⟨⟨stem, rfl⟩, ?_⟩
  refine (KeepsOwn.orRefuse _ _).bind (fun text => (KeepsOwn.orRefuse _ _).bind fun record => ?_) after
  split
  · exact .fail _
  split
  · exact .fail _
  · exact .pure _

private theorem readEntries_keeps (dirs : Dirs) (names : List OutName) : KeepsOwn json (readEntries json dirs names) := by
  induction names with
  | nil => exact .pure _
  | cons name rest ih =>
    cases name with
    | temporary stem => exact ih
    | record stem => exact (readRecord_keeps dirs stem).bind fun _ => ih.bind fun _ => .pure _

theorem readRecords_keeps (dirs : Dirs) : KeepsOwn json (readRecords json dirs) :=
  (KeepsOwn.ask .readDir fun _ _ _ => trivial).bind fun _ => (KeepsOwn.orRefuse _ _).bind fun names => readEntries_keeps dirs names

private theorem firstPresent_keeps (describe : Place → String) (places : List Place) : KeepsOwn json (firstPresent describe places) := by
  induction places with
  | nil => exact .pure _
  | cons place rest ih =>
    refine (KeepsOwn.ask (.inspect place) fun _ _ _ => trivial).bind fun found => ?_
    cases found with
    | present => exact .pure _
    | absent => exact ih
    | failed error => exact .fail _

private theorem freeAttempt_keeps (dirs : Dirs) (repetitions : UInt32) (spec : RunSpec) (room : Nat) :
    KeepsOwn json (freeAttempt dirs repetitions spec room) := by
  induction room with
  | zero =>
    refine (firstPresent_keeps _ _).bind fun found => ?_
    cases found <;> exact .pure _
  | succ room ih =>
    refine (firstPresent_keeps _ _).bind fun found => ?_
    cases found with
    | none => exact .pure _
    | some place => exact ih

private theorem activate_keeps (dirs : Dirs) (repetitions : UInt32) (pending : List PendingConfig) :
    KeepsOwn json (activate dirs repetitions pending) := by
  induction pending with
  | nil => exact .pure _
  | cons entry rest ih =>
    unfold activate
    split
    · exact ih.bind fun _ => .pure _
    · refine (freeAttempt_keeps _ _ _ _).bind fun found => ?_
      cases found <;> exact ih.bind fun _ => .pure _

private theorem checkStops_keeps (stops : ∀ key, KeepsOwn json (stop key))
    (pending : List PendingConfig) : KeepsOwn json (checkStops stop pending) := by
  induction pending with
  | nil => exact .pure _
  | cons entry rest ih =>
    unfold checkStops
    split
    · refine (stops _).bind fun cause => ?_
      cases cause with
      | none => exact ih.bind fun _ => .pure _
      | some cause => exact .pure _
    · exact ih.bind fun _ => .pure _

private theorem rounds_keeps [Figures f64] (dirs : Dirs) (constants : ProtocolConstants)
    (stops : ∀ key, KeepsOwn json (stop key)) (fuel : Nat) (pending : List PendingConfig) (passed : List ConfigKey) :
    KeepsOwn json (rounds json dirs constants stop fuel pending passed) := by
  induction fuel generalizing pending passed with
  | zero => exact .fail _
  | succ fuel ih =>
    refine (KeepsOwn.ask (.mark .round) fun _ _ _ => trivial).bind fun _ => (checkStops_keeps stops _).bind fun (pending, cause) => ?_
    dsimp only
    split
    · exact .pure _
    refine (activate_keeps _ _ _).bind fun (pending, active) => ?_
    dsimp only
    split
    · exact .pure _
    · exact (dispatchAll_keeps _ _).bind fun _ => ih _ _

theorem runConfigsWithStop_keeps [Figures f64] (dirs : Dirs) (constants : ProtocolConstants) (remaining : ConfigKey → Option Nat)
    (stops : ∀ key, KeepsOwn json (stop key)) (specs : List RunSpec) :
    KeepsOwn json (runConfigsWithStop json dirs constants remaining stop specs) :=
  (KeepsOwn.ask .createDirAll fun _ _ _ => trivial).bind fun _ => (KeepsOwn.orRefuse _ _).bind fun _ => rounds_keeps _ _ stops _ _ _

private theorem firstRefusal_keeps (entries : List String) : KeepsOwn json (firstRefusal entries) := by
  induction entries with
  | nil => exact .pure _
  | cons entry rest ih =>
    refine KeepsOwn.bind ?_ fun refusal => ?_
    · unfold survivorResumeRefusal
      split
      · exact .pure _
      · refine (KeepsOwn.ask (.readProcStartTime _) fun _ _ _ => trivial).bind fun answer => ?_
        rcases answer with error | _ | found
        · exact .pure _
        · exact .pure _
        · dsimp only
          split <;> exact .pure _
    · cases refusal with
      | none => exact ih
      | some refusal => exact .pure _

private theorem checkResume_keeps [DecidableEq f64.Value] (quote : String → String) (profile : Profile) (host : HostSetup)
    (records : List (RunRecord f64)) : KeepsOwn json (checkResume quote profile host records) := by
  induction records with
  | nil => exact .pure _
  | cons record rest ih =>
    refine (firstRefusal_keeps _).bind fun refusal => ?_
    cases refusal with
    | some refusal => exact .fail _
    | none =>
      dsimp only
      split
      · exact .fail _
      · exact ih

end Session

namespace SessionSetup
variable (setup : SessionSetup f64)

private theorem failedRecords_keeps (failed : List ConfigKey) : KeepsOwn setup.json (setup.failedRecords failed) := by
  unfold failedRecords
  split
  · exact .pure _
  · exact readRecords_keeps _

variable [Figures f64]

private theorem stopOnExhaustion_keeps (key : ConfigKey) : KeepsOwn setup.json (setup.stopOnExhaustion key) := by
  refine (readRecords_keeps _).bind fun records => ?_
  split <;> exact .pure _

variable (plan : ConfigKey → Option ResumeState)

theorem runConfigs_keeps (specs : List RunSpec) :
    KeepsOwn setup.json (runConfigs setup.json setup.dirs setup.constants (planRemaining plan) specs) :=
  runConfigsWithStop_keeps _ _ _ (fun _ => .pure none) _

theorem plainStage_keeps (specs : List RunSpec) (outcome : MatrixOutcome) :
    KeepsOwn setup.json (setup.plainStage plan specs outcome) :=
  (setup.runConfigs_keeps plan _).bind fun _ => .pure _

private theorem recordedStage_keeps (specs : List RunSpec) (outcome : MatrixOutcome) :
    KeepsOwn setup.json (setup.recordedStage plan specs outcome) :=
  (runConfigsWithStop_keeps _ _ _ setup.stopOnExhaustion_keeps _).bind fun _ => (setup.failedRecords_keeps _).bind fun _ => .pure _

private theorem rowGroup_keeps (workers : UInt32) (qos : UInt8) (outcome : MatrixOutcome) :
    KeepsOwn setup.json (setup.rowGroup plan workers qos outcome) := by
  refine (KeepsOwn.ask .loadCancel fun _ _ _ => trivial).bind fun cancelled => ?_
  cases cancelled with
  | true => exact .fail _
  | false =>
    refine KeepsOwn.bind ((setup.runConfigs_keeps plan _).bind fun _ => .pure _) fun outcome => ?_
    split
    · exact .fail _
    dsimp only
    split
    · exact setup.recordedStage_keeps plan _ _
    · exact setup.plainStage_keeps plan _ _

private theorem rowGroups_keeps (workers : UInt32) (qos : List UInt8) (outcome : MatrixOutcome) :
    KeepsOwn setup.json (setup.rowGroups plan workers qos outcome) := by
  induction qos generalizing outcome with
  | nil => exact .pure _
  | cons qos rest ih =>
    refine (setup.rowGroup_keeps plan workers qos outcome).bind fun outcome => ?_
    split
    · exact .pure _
    · exact ih _

private theorem stages_keeps (workers : List UInt32) (outcome : MatrixOutcome) :
    KeepsOwn setup.json (setup.stages plan workers outcome) := by
  induction workers generalizing outcome with
  | nil => exact .pure _
  | cons workers rest ih =>
    refine (setup.rowGroups_keeps plan workers _ outcome).bind fun outcome => ?_
    split
    · exact .pure _
    refine (KeepsOwn.ask .loadCancel fun _ _ _ => trivial).bind fun cancelled => ?_
    cases cancelled with
    | true => exact .fail _
    | false => exact (setup.plainStage_keeps plan _ _).bind fun _ => ih _

theorem runMatrixWith_keeps [DecidableEq f64.Value] : KeepsOwn setup.json setup.runMatrixWith := by
  refine (KeepsOwn.ask .createDirAll fun _ _ _ => trivial).bind fun _ => (KeepsOwn.orRefuse _ _).bind fun _ => ?_
  refine (KeepsOwn.ask .createDirAll fun _ _ _ => trivial).bind fun _ => (KeepsOwn.orRefuse _ _).bind fun _ => ?_
  refine KeepsOwn.bind ?_ fun plan => setup.stages_keeps plan _ _
  unfold sessionPlan
  split
  · exact (readRecords_keeps _).bind fun existing => (checkResume_keeps _ _ _ _).bind fun _ => .pure _
  · exact .pure _

end SessionSetup
end UringMqtt.Bench
