import UringMqtt.Bench.Json
import UringMqtt.Proofs.Publication

/-! What bench processes on one output directory can come to: every published record is
complete and stays, and nobody removes what another process created. -/

namespace UringMqtt.Bench
open Lib Program

variable {f64 : F64} (json : Json f64)

/-- Every name is that of one file, and every record is the whole text of a run. -/
@[grind cases] structure Disk.Sound (disk : Disk) : Prop where
  records : (disk.records.map Prod.fst).Nodup
  temporaries : (disk.temporaries.map Temporary.stem).Nodup
  inodes : (disk.temporaries.map Temporary.inode).Nodup
  allotted : ∀ entry ∈ disk.temporaries, entry.inode < disk.inodes.length
  scratch : (disk.scratch.map ScratchDir.stem).Nodup
  complete : ∀ stem inode, (stem, inode) ∈ disk.records →
    ∃ record : RunRecord f64, record.stem = stem ∧ disk.inodes[inode]? = some (json.toWriterPretty record)

/-- The temporary record that process `pid` knows is on disk, and no name but its own
refers to it before it is linked. -/
@[grind] structure Temporary.Known (disk : Disk) (pid : Nat) (own : OwnTemporary) : Prop where
  present : ⟨own.stem, own.inode, pid⟩ ∈ disk.temporaries
  text : disk.inodes[own.inode]? = some own.text
  unpublished : own.linked = false → ∀ stem, (stem, own.inode) ∉ disk.records

@[grind cases] structure Holding.Agrees (disk : Disk) (pid : Nat) (view : Holding) : Prop where
  temporary : ∀ own, view.temporary = some own → Temporary.Known disk pid own
  scratch : ∀ stem ∈ view.scratch, ⟨stem, pid⟩ ∈ disk.scratch
  opened : ∀ name, view.opened = some name → name ∈ disk.records

structure Agreement (disk : Disk) (views : Nat → Holding) : Prop where
  sound : disk.Sound json
  views : ∀ pid, (views pid).Agrees disk pid

variable {json}

variable {disk after : Disk} {pid : Nat} {view : Holding} {op : DiskCall} {answer : op.Answer f64}

theorem temporary_unique (sound : disk.Sound json) {one two : Temporary} (first : one ∈ disk.temporaries)
    (second : two ∈ disk.temporaries) (same : one.stem = two.stem ∨ one.inode = two.inode) : one = two := by
  rcases same with same | same
  · exact List.inj_on_of_nodup_map sound.temporaries first second same
  · exact List.inj_on_of_nodup_map sound.inodes first second same

theorem scratch_unique (sound : disk.Sound json) {one two : ScratchDir} (first : one ∈ disk.scratch)
    (second : two ∈ disk.scratch) (same : one.stem = two.stem) : one = two :=
  List.inj_on_of_nodup_map sound.scratch first second same

/-! ### One call -/

theorem views_update {views : Nat → Holding} {holds : Nat → Holding → Prop}
    (own : holds pid view) (others : ∀ other, other ≠ pid → holds other (views other)) (other : Nat) :
    holds other (Function.update views pid view other) := by
  rcases eq_or_ne other pid with rfl | distinct
  · rwa [Function.update_self]
  · rw [Function.update_of_ne distinct]
    exact others other distinct

namespace Agreement
variable {disk : Disk} {views : Nat → Holding} {pid : Nat}

variable {own theirs : OwnTemporary} {other : Nat} {stem : String}

variable (agreement : Agreement json disk views)
include agreement

theorem known (held : (views pid).temporary = some own) :
    Temporary.Known disk pid own :=
  (agreement.views pid).temporary own held

theorem apart (distinct : other ≠ pid) (held : (views pid).temporary = some own) (theirs : OwnTemporary)
    (they : (views other).temporary = some theirs) : theirs.inode ≠ own.inode ∧ theirs.stem ≠ own.stem := by
  have entry := temporary_unique agreement.sound (agreement.known they).present (agreement.known held).present
  exact ⟨fun same => distinct (congrArg Temporary.creator (entry (.inr same))),
    fun same => distinct (congrArg Temporary.creator (entry (.inl same)))⟩

theorem write {inode : Nat} (writes : (views pid).Writes inode) (bytes : List UInt8) :
    Agreement json (disk.write inode bytes) (Function.update views pid ((views pid).write bytes)) := by
  obtain ⟨own, held, rfl, unlinked⟩ := writes
  have sound := agreement.sound
  have mine := agreement.views pid
  refine ⟨?_, views_update ?_ fun other distinct => ?_⟩
  · constructor <;> grind [Disk.write]
  · constructor <;> grind [Disk.write, Holding.write]
  · have theirs := agreement.views other
    have apart := agreement.apart distinct held
    constructor <;> grind [Disk.write]

private theorem createDir (absent : disk.hasScratch stem = false) :
    Agreement json { disk with scratch := disk.scratch ++ [⟨stem, pid⟩] }
      (Function.update views pid { views pid with scratch := stem :: (views pid).scratch }) := by
  have sound := agreement.sound
  have mine := agreement.views pid
  refine ⟨?_, views_update ?_ fun other distinct => ?_⟩
  · constructor <;> grind [Disk.hasScratch]
  · constructor <;> grind
  · have theirs := agreement.views other
    constructor <;> grind

private theorem createNew (absent : disk.hasTemporary stem = false) :
    Agreement json { disk with
        temporaries := disk.temporaries ++ [⟨stem, disk.inodes.length, pid⟩], inodes := disk.inodes ++ [[]] }
      (Function.update views pid { views pid with temporary := some ⟨stem, disk.inodes.length, [], false⟩ }) := by
  have sound := agreement.sound
  have mine := agreement.views pid
  have unpublished (name : String) : (name, disk.inodes.length) ∉ disk.records := by
    intro published
    obtain ⟨_, _, found⟩ := sound.complete name _ published
    exact Nat.lt_irrefl _ (List.getElem?_eq_some_iff.mp found).1
  refine ⟨?_, views_update ?_ fun other distinct => ?_⟩
  · constructor <;> grind [Disk.hasTemporary]
  · constructor <;> grind
  · have theirs := agreement.views other
    constructor <;> grind

private theorem hardLink (absent : disk.hasRecord stem = false)
    {found : Temporary} (linked : disk.temporaries.find? (·.stem = stem) = some found) (complete : (views pid).Complete json stem) :
    Agreement json { disk with records := disk.records ++ [(stem, found.inode)] }
      (Function.update views pid
        { views pid with temporary := (views pid).temporary.map fun own => { own with linked := true } }) := by
  obtain ⟨own, record, held, rfl, named, whole⟩ := complete
  have known := agreement.known held
  obtain rfl : found = ⟨own.stem, own.inode, pid⟩ :=
    temporary_unique agreement.sound (List.mem_of_find?_eq_some linked) known.present (.inl (by simpa using List.find?_some linked))
  have sound := agreement.sound
  have mine := agreement.views pid
  refine ⟨?_, views_update ?_ fun other distinct => ?_⟩
  · constructor <;> grind [Disk.hasRecord]
  · constructor <;> grind
  · have theirs := agreement.views other
    have apart := agreement.apart distinct held
    constructor <;> grind

private theorem removeFile {stem : String}
    (owned : ∃ own, (views pid).temporary = some own ∧ own.stem = stem) :
    Agreement json { disk with temporaries := disk.temporaries.filter (·.stem ≠ stem) }
      (Function.update views pid { views pid with temporary := none }) := by
  obtain ⟨own, held, rfl⟩ := owned
  have sound := agreement.sound
  have mine := agreement.views pid
  have fewer := List.filter_sublist (p := fun entry : Temporary => entry.stem ≠ own.stem) (l := disk.temporaries)
  refine ⟨?_, views_update ?_ fun other distinct => ?_⟩
  · constructor <;> grind [List.Nodup.sublist]
  · constructor <;> grind
  · have theirs := agreement.views other
    have apart := agreement.apart distinct held
    constructor <;> grind

private theorem removeDirAll {stem : String} (owned : stem ∈ (views pid).scratch) :
    Agreement json { disk with scratch := disk.scratch.filter (·.stem ≠ stem) }
      (Function.update views pid { views pid with scratch := (views pid).scratch.filter (· ≠ stem) }) := by
  have sound := agreement.sound
  have mine := agreement.views pid
  refine ⟨?_, views_update ?_ fun other distinct => ?_⟩
  · constructor <;> grind
  · constructor <;> grind
  · have theirs := agreement.views other
    constructor <;> grind [scratch_unique]

end Agreement

/-! ### What a call can do -/

def publishedBy : (op : DiskCall) → op.Answer f64 → Option String
  | .hardLink stem, .ok () => some stem
  | _, _ => none

variable (pid : Nat) (view : Holding) (disk : Disk) in
/-- What an answered call of process `pid`, which knows `view`, makes of its view and of
the directories. -/
inductive Turn : (op : DiskCall) → op.Answer f64 → Holding → Disk → Prop
  | quiet {op : DiskCall} {answer : op.Answer f64} (silent : publishedBy op answer = none) : Turn op answer view disk
  | openFile {stem : String} {inode : Nat} (present : (stem, inode) ∈ disk.records) :
      Turn (.openFile stem) (.ok inode) { view with opened := some (stem, inode) } disk
  | createDir {stem : String} (absent : disk.hasScratch stem = false) :
      Turn (.createDir stem) (.ok ()) { view with scratch := stem :: view.scratch }
        { disk with scratch := disk.scratch ++ [⟨stem, pid⟩] }
  | createNew {stem : String} (absent : disk.hasTemporary stem = false) :
      Turn (.createNew stem) (.ok disk.inodes.length)
        { view with temporary := some ⟨stem, disk.inodes.length, [], false⟩ }
        { disk with temporaries := disk.temporaries ++ [⟨stem, disk.inodes.length, pid⟩], inodes := disk.inodes ++ [[]] }
  | append {inode : Nat} {byte : UInt8} : Turn (.append inode byte) (.ok ()) (view.write [byte]) (disk.write inode [byte])
  | dropWriter {inode written : Nat} {rest : List UInt8} :
      Turn (.dropWriter inode rest) written (view.write (rest.take written)) (disk.write inode (rest.take written))
  | hardLink {stem : String} {found : Temporary} (absent : disk.hasRecord stem = false)
      (linked : disk.temporaries.find? (·.stem = stem) = some found) :
      Turn (.hardLink stem) (.ok ())
        { view with temporary := view.temporary.map fun own => { own with linked := true } }
        { disk with records := disk.records ++ [(stem, found.inode)] }
  | removeFile {stem : String} :
      Turn (.removeFile stem) (.ok ()) { view with temporary := none }
        { disk with temporaries := disk.temporaries.filter (·.stem ≠ stem) }
  | removeDirAll {stem : String} :
      Turn (.removeDirAll stem) true { view with scratch := view.scratch.filter (· ≠ stem) }
        { disk with scratch := disk.scratch.filter (·.stem ≠ stem) }

theorem respond_turn (view : Holding) (answered : Disk.respond pid op answer disk = some after) :
    ∃ next, Holding.see op answer view = some next ∧ Turn pid view disk op answer next after := by
  have quiet (same : some disk = some after) (seen : Holding.see op answer view = some view) (silent : publishedBy op answer = none) :
      ∃ next, Holding.see op answer view = some next ∧ Turn pid view disk op answer next after := by
    obtain rfl := Option.some.inj same
    exact ⟨view, seen, .quiet silent⟩
  cases op with
  | createDir stem =>
    rcases answer with error | ⟨⟩
    · exact quiet answered rfl rfl
    · obtain ⟨absent, ⟨⟩⟩ := Option.ite_none_left_eq_some.mp answered
      exact ⟨_, rfl, .createDir (by simpa using absent)⟩
  | measure spec errors =>
    obtain ⟨measured, same⟩ := Option.ite_none_right_eq_some.mp answered
    exact quiet same (if_pos measured) rfl
  | createNew stem =>
    rcases answer with (_ | error) | inode
    · exact quiet (Option.ite_none_right_eq_some.mp answered).2 rfl rfl
    · exact quiet answered rfl rfl
    · obtain ⟨new, ⟨⟩⟩ := Option.ite_none_left_eq_some.mp answered
      obtain ⟨absent, rfl⟩ : disk.hasTemporary stem = false ∧ inode = disk.inodes.length := by simpa using new
      exact ⟨_, rfl, .createNew absent⟩
  | append inode byte =>
    rcases answer with error | ⟨⟩
    · exact quiet answered rfl rfl
    · obtain ⟨⟩ := answered
      exact ⟨_, rfl, .append⟩
  | dropWriter inode rest =>
    obtain ⟨⟩ := answered
    exact ⟨_, rfl, .dropWriter⟩
  | hardLink stem =>
    rcases answer with (_ | error) | ⟨⟩
    · exact quiet (Option.ite_none_right_eq_some.mp answered).2 rfl rfl
    · exact quiet answered rfl rfl
    · obtain ⟨absent, done⟩ := Option.ite_none_left_eq_some.mp answered
      obtain ⟨found, linked, rfl⟩ := Option.map_eq_some_iff.mp done
      exact ⟨_, rfl, .hardLink (by simpa using absent) linked⟩
  | removeFile stem =>
    rcases answer with error | ⟨⟩
    · exact quiet answered rfl rfl
    · obtain ⟨_, ⟨⟩⟩ := Option.ite_none_right_eq_some.mp answered
      exact ⟨_, rfl, .removeFile⟩
  | removeDirAll stem =>
    cases answer with
    | false => exact quiet answered rfl rfl
    | true =>
      obtain ⟨⟩ := answered
      exact ⟨_, rfl, .removeDirAll⟩
  | openFile stem =>
    rcases answer with error | inode
    · exact quiet answered rfl rfl
    · obtain ⟨present, ⟨⟩⟩ := Option.ite_none_right_eq_some.mp answered
      exact ⟨_, rfl, .openFile present⟩
  | inspect place =>
    cases answer with
    | failed error => exact quiet answered rfl rfl
    | present => exact quiet (Option.ite_none_right_eq_some.mp answered).2 rfl rfl
    | absent => exact quiet (Option.ite_none_left_eq_some.mp answered).2 rfl rfl
  | readDir | readFile _ =>
    cases answer with
    | error _ => exact quiet answered rfl rfl
    | ok _ => exact quiet (Option.ite_none_right_eq_some.mp answered).2 rfl rfl
  | mark _ | loadCancel | createDirAll | held | intoInner | syncAll | readProcStartTime _ => exact quiet answered rfl rfl

theorem Agreement.turn {views : Nat → Holding}
    (agreement : Agreement json disk views) (turn : Turn pid (views pid) disk op answer view after)
    (allowed : Holding.Allows json (views pid) op answer view) : Agreement json after (Function.update views pid view) := by
  cases turn with
  | quiet => rwa [Function.update_eq_self]
  | openFile present =>
    exact ⟨agreement.sound, views_update ⟨(agreement.views pid).temporary, (agreement.views pid).scratch,
      fun name opened => Option.some.inj opened ▸ present⟩ fun other _ => agreement.views other⟩
  | createDir absent => exact agreement.createDir absent
  | createNew absent => exact agreement.createNew absent
  | append => exact agreement.write allowed _
  | dropWriter => exact agreement.write allowed _
  | hardLink absent linked => exact agreement.hardLink absent linked allowed
  | removeFile => exact agreement.removeFile allowed
  | removeDirAll => exact agreement.removeDirAll allowed

def bookkeeping (json : Json f64) : @Views (diskPort f64) Disk Disk.respond Holding where
  see := Holding.see
  good := Holding.Allows json
  agrees := Agreement json
  acts _ views pid _ _ _ agreement answered :=
    have ⟨view, seen, turn⟩ := respond_turn (views pid) answered
    ⟨view, seen, agreement.turn turn⟩


/-! ### Every run -/

/-- `<stem>.json` is published with this text. -/
def Disk.Published (disk : Disk) (stem : String) (text : List UInt8) : Prop :=
  ∃ inode, (stem, inode) ∈ disk.records ∧ disk.inodes[inode]? = some text

/-- What an answered call keeps and leaves of the files: no record changes, and what is
gone was the caller's. -/
structure Spares (pid : Nat) (disk after : Disk) : Prop where
  published : ∀ stem text, disk.Published stem text → after.Published stem text
  temporaries : ∀ entry ∈ disk.temporaries, entry ∉ after.temporaries → entry.creator = pid
  scratch : ∀ dir ∈ disk.scratch, dir ∉ after.scratch → dir.creator = pid

private theorem Agreement.spares_write {views : Nat → Holding} {inode : Nat} (agreement : Agreement json disk views)
    (writes : (views pid).Writes inode) (bytes : List UInt8) : Spares pid disk (disk.write inode bytes) := by
  obtain ⟨own, held, rfl, unlinked⟩ := writes
  have known := agreement.known held
  constructor <;> grind [Disk.write, Disk.Published]

theorem Agreement.spares {views : Nat → Holding}
    (agreement : Agreement json disk views) (turn : Turn pid (views pid) disk op answer view after)
    (allowed : Holding.Allows json (views pid) op answer view) : Spares pid disk after := by
  cases turn with
  | append | dropWriter => exact agreement.spares_write allowed _
  | @removeFile stem =>
    obtain ⟨own, held, rfl⟩ := allowed
    have known := agreement.known held
    constructor <;> grind [temporary_unique agreement.sound, Disk.Published]
  | @removeDirAll stem =>
    have mine := (agreement.views pid).scratch stem allowed
    constructor <;> grind [scratch_unique agreement.sound, Disk.Published]
  | quiet | openFile | createDir | createNew | hardLink => constructor <;> grind [Disk.Published]

section Crowd
variable [Figures f64] [DecidableEq f64.Value]

/-- A process is a matrix session, or only reads the records as `bench doc` does. All of
them write and read records in the same way. -/
inductive Launched (json : Json f64) : Fs f64 MatrixOutcome → Prop
  | session (setup : SessionSetup f64) (same : setup.json = json) : Launched json setup.runMatrixWith
  | reader (dirs : Dirs) : Launched json (readRecords json dirs >>= fun _ => pure default)

abbrev BenchCrowd (f64 : F64) : Type := Crowd (diskPort f64) MatrixOutcome Disk

abbrev BenchStep (json : Json f64) : BenchCrowd f64 → CrowdEvent (diskPort f64) → BenchCrowd f64 → Prop :=
  Crowd.Step Disk.respond (Launched json)

def BenchCrowd.start : BenchCrowd f64 := ⟨⟨[], [], [], []⟩, fun _ => .unborn⟩

omit [Figures f64] [DecidableEq f64.Value] in
private theorem start_kept : (bookkeeping json).Kept (BenchCrowd.start : BenchCrowd f64) Holding.empty fun _ => Holding.empty where
  agrees := ⟨⟨List.nodup_nil, List.nodup_nil, List.nodup_nil, by simp [BenchCrowd.start], List.nodup_nil, by simp [BenchCrowd.start]⟩,
    fun _ => ⟨by simp [Holding.empty], by simp [Holding.empty], by simp [Holding.empty]⟩⟩
  unborn _ _ := rfl
  running _ _ running := nomatch running

private theorem launched_kept (program : Fs f64 MatrixOutcome) (launched : Launched json program) :
    Holds (bookkeeping json).see (bookkeeping json).good (fun _ _ => True) (fun _ _ => True) program Holding.empty := by
  cases launched with
  | session setup same =>
    subst same
    exact setup.runMatrixWith_keeps _
  | reader dirs => exact (readRecords_keeps dirs).bind (fun _ => .pure _) _

variable {seen : List (CrowdEvent (diskPort f64))} {crowd next : BenchCrowd f64} {pid : Nat} {view : Holding} {disk after : Disk}
  {op : DiskCall} {answer : op.Answer f64}

theorem reached_kept
    (run : Runs (BenchStep json) BenchCrowd.start seen crowd) : ∃ views, (bookkeeping json).Kept crowd Holding.empty views :=
  start_kept.runs launched_kept run

theorem reached_step {label : CrowdEvent (diskPort f64)}
    (run : Runs (BenchStep json) BenchCrowd.start seen crowd) (moved : BenchStep json crowd label next) :
    (next.shared = crowd.shared ∧ ((∃ pid, label = .start pid) ∨ ∃ pid, label = .kill pid)) ∨
      ∃ pid op answer views view, label = .act pid op answer ∧ Agreement json crowd.shared views ∧
        Turn pid (views pid) crowd.shared op answer view next.shared ∧ Holding.Allows json (views pid) op answer view := by
  cases moved with
  | @start pid => exact .inl ⟨rfl, .inl ⟨pid, rfl⟩⟩
  | @kill pid => exact .inl ⟨rfl, .inr ⟨pid, rfl⟩⟩
  | @act pid op rest answer after running answered =>
    obtain ⟨views, kept⟩ := reached_kept run
    obtain ⟨view, seen, turn⟩ := respond_turn (views pid) answered
    exact .inr ⟨pid, op, answer, views, view, rfl, kept.agrees, turn, (kept.running pid _ running answer view seen).1⟩

def publishedStem : CrowdEvent (diskPort f64) → Option String
  | .act _ op answer => publishedBy op answer
  | .start _ | .kill _ => none

omit [Figures f64] [DecidableEq f64.Value] in
theorem Turn.records {next : Holding} (turn : Turn pid view disk op answer next after) :
    after.records.map Prod.fst = disk.records.map Prod.fst ++ (publishedBy op answer).toList := by
  cases turn with
  | quiet silent => simp [silent]
  | hardLink => simp [publishedBy]
  | openFile | createDir | createNew | append | dropWriter | removeFile | removeDirAll => simp [publishedBy, Disk.write]

private theorem records_published
    (run : Runs (BenchStep json) BenchCrowd.start seen crowd) : crowd.shared.records.map Prod.fst = seen.filterMap publishedStem := by
  refine (run.invariant (fun seen crowd => Runs (BenchStep json) BenchCrowd.start seen crowd ∧
    crowd.shared.records.map Prod.fst = seen.filterMap publishedStem) ⟨.start, rfl⟩ ?_).2
  rintro seen crowd label next ⟨run, same⟩ moved
  refine ⟨run.next moved, ?_⟩
  rw [List.filterMap_append, ← same]
  rcases reached_step run moved with ⟨unchanged, ⟨_, rfl⟩ | ⟨_, rfl⟩⟩ | ⟨_, op, answer, _, _, rfl, _, turn, _⟩
  · simp [unchanged, publishedStem]
  · simp [unchanged, publishedStem]
  · rw [turn.records]
    cases found : publishedBy op answer <;> simp [publishedStem, found]

private theorem published_stays {later : List (CrowdEvent (diskPort f64))} {middle last : BenchCrowd f64}
    (early : Runs (BenchStep json) BenchCrowd.start seen middle) (late : Runs (BenchStep json) middle later last) {stem : String}
    {text : List UInt8} (published : middle.shared.Published stem text) : last.shared.Published stem text := by
  refine (late.invariant (fun later crowd => Runs (BenchStep json) BenchCrowd.start (seen ++ later) crowd ∧
    crowd.shared.Published stem text) ⟨by rwa [List.append_nil], published⟩ ?_).2
  rintro later crowd label next ⟨run, published⟩ moved
  refine ⟨List.append_assoc .. ▸ run.next moved, ?_⟩
  rcases reached_step run moved with ⟨unchanged, _⟩ | ⟨_, _, _, _, _, _, agreement, turn, allowed⟩
  · rwa [unchanged]
  · exact (agreement.spares turn allowed).published stem text published

def Temporary.creation (entry : Temporary) : CrowdEvent (diskPort f64) := .act entry.creator (.createNew entry.stem) (.ok entry.inode)

def ScratchDir.creation (dir : ScratchDir) : CrowdEvent (diskPort f64) := .act dir.creator (.createDir dir.stem) (.ok ())

omit [Figures f64] [DecidableEq f64.Value] in
private theorem Turn.creators {next : Holding} (turn : Turn pid view disk op answer next after) :
    (∀ entry ∈ after.temporaries, entry ∈ disk.temporaries ∨ entry.creation = .act pid op answer) ∧
      (∀ dir ∈ after.scratch, dir ∈ disk.scratch ∨ dir.creation = .act pid op answer) := by
  cases turn <;> constructor <;> grind [Temporary.creation, ScratchDir.creation, Disk.write]

private theorem reached_creators (run : Runs (BenchStep json) BenchCrowd.start seen crowd) :
    (∀ entry ∈ crowd.shared.temporaries, entry.creation ∈ seen) ∧ (∀ dir ∈ crowd.shared.scratch, dir.creation ∈ seen) := by
  refine (run.invariant (fun seen crowd => Runs (BenchStep json) BenchCrowd.start seen crowd ∧
    (∀ entry ∈ crowd.shared.temporaries, entry.creation ∈ seen) ∧ (∀ dir ∈ crowd.shared.scratch, dir.creation ∈ seen))
    ⟨.start, by simp [BenchCrowd.start], by simp [BenchCrowd.start]⟩ ?_).2
  rintro seen crowd label next ⟨run, temporaries, scratch⟩ moved
  refine ⟨run.next moved, ?_⟩
  rcases reached_step run moved with ⟨unchanged, _⟩ | ⟨_, _, _, _, _, rfl, _, turn, _⟩
  · grind
  · obtain ⟨entries, dirs⟩ := turn.creators
    grind

private theorem read_complete {inode : Nat} {text : List UInt8}
    (run : Runs (BenchStep json) BenchCrowd.start seen crowd) (moved : BenchStep json crowd (.act pid (.readFile inode) (.ok text)) next) :
    ∃ record : RunRecord f64, (record.stem, inode) ∈ crowd.shared.records ∧ text = json.toWriterPretty record := by
  cases moved with
  | act running answered =>
    obtain ⟨views, kept⟩ := reached_kept run
    obtain ⟨view, seen, _⟩ := respond_turn (views pid) answered
    obtain ⟨stem, opened⟩ := (kept.running pid _ running (.ok text) view seen).1
    have present := (kept.agrees.views pid).opened _ opened
    obtain ⟨record, rfl, whole⟩ := kept.agrees.sound.complete stem inode present
    have found := (Option.ite_none_right_eq_some.mp answered).1
    exact ⟨record, present, Option.some.inj (found.symm.trans whole)⟩

/-- Records on one output directory, whatever number of bench processes works on it, in
any interleaving of their calls and wherever they are killed: a `<stem>.json` is absent
or a complete record, it is published once and stays as it is, nobody removes what
another process created, and nobody reads a part of a record. Whatever `run_one_with`
returns is an answer the sessions go on with. -/
theorem publication_atomic {seen later : List (CrowdEvent (diskPort f64))} {middle last : BenchCrowd f64}
    (early : Runs (BenchStep json) BenchCrowd.start seen middle) (late : Runs (BenchStep json) middle later last) :
    (∀ stem inode, (stem, inode) ∈ middle.shared.records →
      ∃ record : RunRecord f64, record.stem = stem ∧ middle.shared.inodes[inode]? = some (json.toWriterPretty record)) ∧
    ((seen ++ later).filterMap publishedStem).Nodup ∧
    (∀ stem text, middle.shared.Published stem text → last.shared.Published stem text) ∧
    (∀ entry ∈ middle.shared.temporaries, entry.creation ∈ seen) ∧ (∀ dir ∈ middle.shared.scratch, dir.creation ∈ seen) ∧
    (∀ label next, BenchStep json middle label next →
      (∀ entry ∈ middle.shared.temporaries, entry ∉ next.shared.temporaries → ∃ op answer, label = .act entry.creator op answer) ∧
      (∀ dir ∈ middle.shared.scratch, dir ∉ next.shared.scratch → ∃ op answer, label = .act dir.creator op answer)) ∧
    (∀ pid inode text next, BenchStep json middle (.act pid (.readFile inode) (.ok text)) next →
      ∃ record : RunRecord f64, (record.stem, inode) ∈ middle.shared.records ∧ text = json.toWriterPretty record) ∧
    (∀ pid (observed : Observed) ended survivors errors, errors <+: observed.harnessErrors →
      Disk.respond pid (.measure observed.spec errors) (runOneWith observed ended survivors : RunRecord f64) middle.shared =
        some middle.shared) := by
  obtain ⟨views, kept⟩ := reached_kept early
  refine ⟨kept.agrees.sound.complete, ?_, fun stem text => published_stays early late, (reached_creators early).1,
    (reached_creators early).2, fun label next moved => ?_, fun pid inode text next => read_complete early,
    fun _ observed ended survivors _ noted => if_pos (measured_runOneWith observed ended survivors noted)⟩
  · have whole := early.append late
    obtain ⟨views, kept⟩ := reached_kept whole
    rw [← records_published whole]
    exact kept.agrees.sound.records
  · rcases reached_step early moved with ⟨unchanged, _⟩ | ⟨pid, op, answer, views, view, rfl, agreement, turn, allowed⟩
    · rw [unchanged]
      exact ⟨fun _ present gone => absurd present gone, fun _ present gone => absurd present gone⟩
    · have spares := agreement.spares turn allowed
      exact ⟨fun entry present gone => ⟨op, answer, by rw [spares.temporaries entry present gone]⟩,
        fun dir present gone => ⟨op, answer, by rw [spares.scratch dir present gone]⟩⟩

end Crowd

/-! ### Two sessions at their first record -/

def shortRun (spec : RunSpec) (harnessErrors : List String) : RunRecord binary64 :=
  let host : HostSetup := ⟨.none, ⟨"0", "1"⟩, ⟨"", "", "", "", false, []⟩⟩
  runOneWith ⟨spec, host, harnessErrors, .release, ⟨0, ⟨0, 0⟩⟩, none, none, 0, 0⟩ .early []

def willing (disk : Disk) : (op : DiskCall) → op.Answer binary64
  | .loadCancel => false
  | .createDirAll | .append _ _ | .intoInner | .syncAll => .ok ()
  | .createDir stem => if disk.hasScratch stem then .error "" else .ok ()
  | .inspect place => if disk.holds place then .present else .absent
  | .measure spec errors => shortRun spec errors
  | .createNew stem => if disk.hasTemporary stem then .error .alreadyExists else .ok disk.inodes.length
  | .held | .dropWriter _ _ => 0
  | .hardLink stem => if disk.hasRecord stem then .error .alreadyExists else .ok ()
  | .removeFile stem => if disk.hasTemporary stem then .ok () else .error ""
  | .removeDirAll _ => true
  | .readDir => .ok disk.names
  | .openFile stem => ((disk.records.find? (·.1 = stem)).map (·.2)).elim (.error "") .ok
  | .readFile inode => disk.inodes[inode]?.elim (.error "") .ok
  | .readProcStartTime _ => .ok none
  | .mark _ => ()

def smallSession : SessionSetup binary64 where
  json := ⟨fun _ => [0, 1], fun _ => .error ""⟩
  dirs := ⟨"out", "out/.scratch"⟩
  spec := ⟨.smoke, [.uring], [1], [1], false⟩
  host := ⟨.none, ⟨"0", "1"⟩, ⟨"", "", "", "", false, []⟩⟩
  quote := id

/-- Two processes find the directory empty; the second one publishes the first record, and
the link of the other is refused. -/
theorem publication_atomic_raced :
    ∃ (seen : List (CrowdEvent (diskPort binary64))) (middle : BenchCrowd binary64),
      Runs (BenchStep smallSession.json) BenchCrowd.start seen middle ∧
      middle.shared.records = [("uring-w1-q1-throughput-a1-r1", 0)] ∧ middle.shared.temporaries = [] ∧
      middle.shared.inodes.length = 2 ∧ (seen.filterMap publishedStem).Nodup := by
  have driven : ((drive (Disk.respond 0) willing 12 (⟨[], [], [], []⟩, smallSession.runMatrixWith)).bind fun one =>
      (drive (Disk.respond 1) willing 25 (one.1, smallSession.runMatrixWith)).bind fun two =>
        (drive (Disk.respond 0) willing 13 (two.1, one.2)).map fun last =>
          (last.1.records, last.1.temporaries, last.1.inodes.length)) =
      some ([("uring-w1-q1-throughput-a1-r1", 0)], [], 2) := by
    decide +kernel
  obtain ⟨one, first, driven⟩ := Option.bind_eq_some_iff.mp driven
  obtain ⟨two, second, driven⟩ := Option.bind_eq_some_iff.mp driven
  obtain ⟨last, third, same⟩ := Option.map_eq_some_iff.mp driven
  obtain ⟨records, temporaries, inodes⟩ : _ ∧ _ ∧ _ := by simpa only [Prod.mk.injEq] using same
  have starts : BenchStep smallSession.json BenchCrowd.start (.start 0) _ := .start rfl (.session smallSession rfl)
  have begun := (Runs.single starts).append (Crowd.alone rfl rfl (drive_runs first))
  have joined := begun.next (@Crowd.Step.start _ _ _ _ _ _ 1 _ rfl (.session smallSession rfl))
  have wins := joined.append (Crowd.alone (by rfl) (by rfl) (drive_runs second))
  have whole := wins.append (Crowd.alone (by rfl) (by rfl) (drive_runs third))
  have facts := publication_atomic whole .start
  exact ⟨_, _, whole, records, temporaries, inodes, by simpa using facts.2.1⟩

end UringMqtt.Bench
