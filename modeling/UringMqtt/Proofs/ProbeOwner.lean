import UringMqtt.Proofs.ProbeLife

/-! Who cleans up a started probe. The threads of a probe keep to the calls that their
part of its life permits, so every run tells one life of it. -/

namespace UringMqtt.Bench
open Lib Program

/-! ### What the threads do -/

section Programs
variable {α : Type} {view : ProbeView}

/-- A part of a thread that makes only the calls it may make. -/
abbrev Behaves (program : ProbeProgram α) (view : ProbeView) (post : ProbeView → α → Prop) : Prop :=
  Holds ProbeView.see (fun view op _ _ => view.Permits op) post (fun _ _ => True) program view

theorem behaves_aside {op : ProbeCall} {rest : op.Answer → ProbeProgram α} {post : ProbeView → α → Prop}
    (aside : ∀ answer, ProbeView.see op answer view = some view) (permitted : view.Permits op)
    (goes : ∀ answer, Behaves (rest answer) view post) : Behaves (request op >>= rest) view post := by
  refine .perform_bind fun answer after seen => ⟨permitted, ?_⟩
  obtain rfl := Option.some.inj ((aside answer).symm.trans seen)
  exact goes answer

theorem probeExit_behaves (child : ProbeChild) : Behaves (probeExit child) view fun after _ => after = view := by
  rw [probeExit, rawPid_eq]
  intro answer after seen
  exact ⟨trivial, (Option.some.inj seen).symm⟩

variable {cleaner : Cleaner} {child : ProbeChild}

private theorem sendKill_behaves {count : Nat} {target : Int} (what : String) (failures : List String)
    (next : (ProbeLife.signals child)[count]? = some (.signalled target)) :
    Behaves (sendKill (some target) what failures) (.cleaning cleaner child count) fun after _ =>
      after = .cleaning cleaner child (count + 1) := by
  refine .perform_bind fun answer after seen => ⟨⟨cleaner, child, count, rfl, next⟩, ?_⟩
  cases seen
  cases answer <;> rfl

private theorem leaveUnreaped_behaves (probe : Probe) (signalFailures : List String) (failure : String) :
    Behaves (leaveUnreaped probe child signalFailures failure) (.cleaning cleaner child 2) fun after _ => after = .cleaned cleaner := by
  refine .perform_bind fun answer after seen => ⟨⟨cleaner, rfl⟩, ?_⟩
  cases seen
  cases answer <;> rfl

private theorem reapProbe_behaves (probe : Probe) (signalFailures : List String) (fuel : Nat) :
    Behaves (reapProbe probe child signalFailures fuel) (.cleaning cleaner child 2) fun after _ => after = .cleaned cleaner := by
  induction fuel with
  | zero => exact trivial
  | succ fuel ih =>
    refine .andThen (probeExit_behaves child) ?_
    rintro _ status rfl
    rcases status with error | _ | status
    · exact leaveUnreaped_behaves _ _ _
    · refine behaves_aside (fun _ => rfl) trivial fun late => ?_
      cases late
      · exact behaves_aside (fun _ => rfl) trivial fun _ => ih
      · exact leaveUnreaped_behaves _ _ _
    · refine .perform_bind fun answer after seen => ⟨.inl ⟨cleaner, rfl⟩, ?_⟩
      cases seen
      rfl

theorem cleanupProbe_behaves (fuel : Nat) (probe : Probe) (permitted : view.Permits (.cleanup cleaner child)) :
    Behaves (cleanupProbe cleaner fuel probe child) view fun after _ => after = .cleaned cleaner := by
  refine .perform_bind fun answer after seen => ⟨permitted, ?_⟩
  cases seen
  rw [rawPid_eq]
  refine .andThen (sendKill_behaves "group" [] rfl) ?_
  rintro _ failures rfl
  refine .andThen (sendKill_behaves "pid" failures rfl) ?_
  rintro _ failures rfl
  exact reapProbe_behaves _ _ _

private theorem abandonStartup_behaves (fuel : Nat) (probe : Probe) (refusal : String) :
    Behaves (abandonStartup fuel probe refusal) .waiting fun after _ => after = .waiting ∨ after = .gaveUp := by
  refine .perform_bind fun answer after seen => ⟨rfl, ?_⟩
  rcases answer with (error | child) | _ | _
  · cases seen
    exact .inl rfl
  · cases seen
    have permitted : (ProbeView.got child).Permits (.cleanup .giveUp child) := rfl
    refine .andThen (cleanupProbe_behaves fuel probe permitted) ?_
    rintro _ cleaned rfl
    cases cleaned <;> exact .inr rfl
  · cases seen
    exact .inl rfl
  · cases seen
    exact .inl rfl

def BeforeReturn (after : ProbeView) : Started → Prop
  | .ok child => after = .got child
  | .error _ => after = .waiting ∨ after = .gaveUp

private theorem awaitStarted_behaves (reaps : Nat) (probe : Probe) (fuel : Nat) :
    Behaves (awaitStarted reaps probe fuel) .waiting BeforeReturn := by
  induction fuel with
  | zero => exact trivial
  | succ fuel ih =>
    refine behaves_aside (fun _ => rfl) trivial fun cancelled => ?_
    cases cancelled
    · refine behaves_aside (fun _ => rfl) trivial fun late => ?_
      cases late
      · refine .perform_bind fun answer after seen => ⟨rfl, ?_⟩
        rcases answer with (error | child) | _ | _
        · cases seen
          exact .inl rfl
        · cases seen
          exact rfl
        · cases seen
          exact ih
        · cases seen
          exact .inl rfl
      · exact .andThen (abandonStartup_behaves _ _ _) fun _ _ held => held
    · exact .andThen (abandonStartup_behaves _ _ _) fun _ _ held => held

private theorem startProbe_behaves (fuel : Nat) (probe : Probe) : Behaves (startProbe fuel probe) .calling fun after started =>
    (∀ child, started = .ok child → after = .owner child) ∧ (∀ error, started = .error error → after = .ended) := by
  refine .perform_bind fun starting after seen => ⟨rfl, ?_⟩
  have begun : Behaves (startedBy fuel probe starting) after BeforeReturn := by
    cases starting <;> cases seen
    · exact .inr rfl
    · exact awaitStarted_behaves _ _ _
  refine .andThen begun fun view started held => .perform_bind fun _ after seen => ?_
  cases started <;> cases seen
  · exact ⟨held, by simp, by simp⟩
  · exact ⟨held, by simp, by simp⟩

private theorem starter_behaves (fuel : Nat) (probe : Probe) : Behaves (starter fuel probe) .ready fun after _ => after = .ended := by
  refine .perform_bind fun spawned after seen => ⟨rfl, ?_⟩
  refine .perform_bind fun _ blocked offered => ⟨?_, ?_⟩
  · cases spawned <;> cases seen <;> rfl
  obtain rfl := Option.some.inj offered
  refine .perform_bind fun unsent view returned => ⟨⟨_, rfl⟩, ?_⟩
  have ends : Behaves (afterSend fuel probe unsent) view fun after _ => after = .sent := by
    rcases unsent with _ | error | child <;> obtain rfl := Option.some.inj returned
    · exact rfl
    · exact rfl
    · have permitted : (ProbeView.unsent child).Permits (.cleanup .starter child) := rfl
      refine .andThen (cleanupProbe_behaves fuel probe permitted) ?_
      rintro _ cleaned rfl
      cases cleaned with
      | ok => exact rfl
      | error error => exact fun _ after seen => ⟨trivial, (Option.some.inj seen).symm⟩
  refine .andThen ends ?_
  rintro _ _ rfl
  exact fun _ after seen => ⟨rfl, (Option.some.inj seen).symm⟩

private theorem recvVersionLine_behaves (fuel : Nat) : Behaves (recvVersionLine fuel) view fun after _ => after = view := by
  induction fuel with
  | zero => exact trivial
  | succ fuel ih =>
    refine behaves_aside (fun _ => rfl) trivial fun cancelled => ?_
    cases cancelled
    · refine behaves_aside (fun _ => rfl) trivial fun late => ?_
      cases late
      · refine behaves_aside (fun _ => rfl) trivial fun answer => ?_
        rcases answer with (line | _ | error) | _ | _
        · dsimp only
          split
          · exact ih
          · split <;> exact rfl
        · exact rfl
        · exact rfl
        · exact ih
        · exact rfl
      · exact rfl
    · exact rfl

private theorem waitForHeadSha_behaves (child : ProbeChild) (fuel : Nat) (first : Option String) (eof : Bool) (status : Option WaitStatus) :
    Behaves (waitForHeadSha child fuel first eof status) view fun after _ => after = view := by
  induction fuel generalizing first eof status with
  | zero => exact trivial
  | succ fuel ih =>
    refine behaves_aside (fun _ => rfl) trivial fun cancelled => ?_
    cases cancelled
    · refine behaves_aside (fun _ => rfl) trivial fun late => ?_
      cases late
      · have known : Behaves (knownExit child status) view fun after _ => after = view := by
          cases status
          · exact probeExit_behaves child
          · exact rfl
        refine .andThen known ?_
        rintro _ answer rfl
        rcases answer with error | status
        · exact rfl
        · dsimp only
          split
          · exact rfl
          · split
            · exact behaves_aside (fun _ => rfl) trivial fun _ => ih _ _ _
            · refine behaves_aside (fun _ => rfl) trivial fun answer => ?_
              rcases answer with (line | _ | error) | _ | _
              · exact ih _ _ _
              · exact ih _ _ _
              · exact rfl
              · exact ih _ _ _
              · exact ih _ _ _
      · exact rfl
    · exact rfl

private theorem ProbeUse.result_behaves (use : ProbeUse) (fuel : Nat) (child : ProbeChild) :
    Behaves (use.result fuel child) view fun after _ => after = view := by
  refine behaves_aside (fun _ => rfl) trivial fun piped => ?_
  cases piped
  · exact rfl
  · have reader : Behaves (spawnStdoutReader use.probe.label) view fun after _ => after = view :=
      behaves_aside (fun _ => rfl) trivial fun _ => rfl
    refine .andThen reader ?_
    rintro _ started rfl
    cases started
    · exact rfl
    · cases use
      · exact waitForHeadSha_behaves child fuel none false none
      · exact recvVersionLine_behaves fuel

private theorem ProbeUse.run_behaves (use : ProbeUse) (fuel : Nat) : Behaves (use.run fuel) .calling fun after _ => after = .ended := by
  refine .andThen (startProbe_behaves fuel use.probe) fun view started held => ?_
  cases started with
  | error error => exact held.2 error rfl
  | ok child =>
    obtain rfl := held.1 child rfl
    refine .andThen (use.result_behaves fuel child) ?_
    rintro _ result rfl
    have permitted : (ProbeView.owner child).Permits (.cleanup .caller child) := rfl
    exact .andThen (cleanupProbe_behaves fuel use.probe permitted) fun _ _ cleaned => cleaned

private theorem launched_behaves {use : ProbeUse} {program : ProbeThreadProgram} (launched : ProbeLaunched use program) :
    Behaves program .idle fun _ _ => True := by
  cases launched with
  | caller fuel =>
    refine .perform_bind fun _ after seen => ⟨rfl, ?_⟩
    cases seen
    exact .andThen (use.run_behaves fuel) fun _ _ _ => trivial
  | starter fuel =>
    refine .perform_bind fun _ after seen => ⟨rfl, ?_⟩
    cases seen
    exact .andThen (starter_behaves fuel use.probe) fun _ _ _ => trivial
  | reaper child =>
    refine .perform_bind fun _ after seen => ⟨rfl, ?_⟩
    cases seen
    exact .perform_bind fun _ _ _ => ⟨.inr rfl, trivial⟩

end Programs

/-! ### Every run -/

abbrev actsOf (seen : List (CrowdEvent probePort)) : List ProbeAct := seen.flatMap (CrowdEvent.notes probeActs)

/-- What can happen to a probe, in this order. -/
def ProbeChild.routes (child : ProbeChild) : List (List ProbeAct) :=
  [[.spawned child, .returned child, .cleanup .caller child, .signalled (-child.pid), .signalled child.pid, .reaped child],
    [.spawned child, .cleanup .giveUp child, .signalled (-child.pid), .signalled child.pid, .reaped child],
    [.spawned child, .cleanup .starter child, .signalled (-child.pid), .signalled child.pid, .reaped child]]

private theorem ProbeLife.reaped_mem_routes (cleaner : Cleaner) (child : ProbeChild) : (reaped cleaner child).history ∈ child.routes := by
  cases cleaner <;> simp [ProbeChild.routes, history, opening, signals]

private theorem ProbeLife.history_begins (life : ProbeLife) :
    life = .unborn ∨ ∃ child cleaner, life.history <+: (reaped cleaner child).history := by
  cases life with
  | unborn => exact .inl rfl
  | starting child => exact .inr ⟨child, .starter, _, rfl⟩
  | offered child => exact .inr ⟨child, .starter, _, rfl⟩
  | received child => exact .inr ⟨child, .giveUp, _, rfl⟩
  | unsent child => exact .inr ⟨child, .starter, _, rfl⟩
  | returned child => exact .inr ⟨child, .caller, _, rfl⟩
  | cleaning cleaner child count =>
    refine .inr ⟨child, cleaner, ?_⟩
    rw [history, history, List.append_assoc, List.prefix_append_right_inj]
    have taken := List.take_prefix count (signals child)
    exact taken.trans (List.prefix_append _ _)
  | left cleaner child => exact .inr ⟨child, cleaner, List.prefix_append _ _⟩
  | reaped cleaner child => exact .inr ⟨child, cleaner, List.prefix_rfl⟩

private theorem probeAgreement_initial : ProbeAgreement .initial [] (fun _ => .idle) .unborn := by
  constructor <;> simp [ProbeHost.initial, ProbeLife.history, ProbeLife.Caller, ProbeLife.Starter, ProbeLife.Reaper, ProbeView.Bare]

variable {use : ProbeUse} {seen : List (CrowdEvent probePort)} {crowd : Crowd probePort (Option (Except String String)) ProbeHost}

theorem probe_kept (run : Runs (ProbeStep use) probeCrowd seen crowd) :
    ∃ views, probeViews.Kept ⟨(crowd.shared, actsOf seen), crowd.process⟩ .idle views := by
  have start : probeViews.Kept (α := Option (Except String String)) ⟨(.initial, []), fun _ => .unborn⟩ .idle fun _ => .idle :=
    ⟨⟨.unborn, probeAgreement_initial⟩, fun _ _ => rfl, fun _ _ running => nomatch running⟩
  exact start.runs (fun _ => launched_behaves) (Crowd.logged_runs run)

variable {host : ProbeHost} {acts : List ProbeAct} {views : Nat → ProbeView} {life : ProbeLife}

theorem ProbeAgreement.settled (agreement : ProbeAgreement host acts views life) (returned : host.receiving = false)
    (ended : host.starter = .ended) :
    acts = [] ∨ ∃ child, [.spawned child, .returned child] <+: acts ∨
      ∃ cleaner ∈ [Cleaner.giveUp, .starter],
        [.spawned child, .cleanup cleaner child, .signalled (-child.pid), .signalled child.pid] <+: acts := by
  have caller := agreement.caller
  have starter := agreement.starter
  have gone := agreement.receiving returned
  have left := agreement.ended ended
  rw [agreement.history]
  cases life with
  | unborn => exact .inl rfl
  | starting child => grind
  | offered child => grind
  | received child => grind
  | unsent child => grind
  | returned child => exact .inr ⟨child, .inl List.prefix_rfl⟩
  | cleaning cleaner child count =>
    cases cleaner with
    | giveUp => grind
    | starter => grind
    | caller => exact .inr ⟨child, .inl ⟨_, rfl⟩⟩
  | left cleaner child =>
    refine .inr ⟨child, ?_⟩
    cases cleaner with
    | giveUp => exact .inr ⟨.giveUp, by simp, List.prefix_rfl⟩
    | starter => exact .inr ⟨.starter, by simp, List.prefix_rfl⟩
    | caller => exact .inl ⟨_, rfl⟩
  | reaped cleaner child =>
    refine .inr ⟨child, ?_⟩
    cases cleaner with
    | giveUp => exact .inr ⟨.giveUp, by simp, _, rfl⟩
    | starter => exact .inr ⟨.starter, by simp, _, rfl⟩
    | caller => exact .inl ⟨_, rfl⟩

private theorem ProbeAgreement.sent_answered
    {started : Started} (agreement : ProbeAgreement host acts views life) (blocked : views 1 = .blocked started) :
    (∃ answer after, ProbeHost.respond 1 .sent answer host = some after) ∨ host.receiving = true := by
  rcases agreement.blocked started blocked with waits | taken
  · cases gone : host.receiving with
    | true => exact .inr rfl
    | false => exact .inl ⟨some started, _, if_pos ⟨gone, waits⟩⟩
  · exact .inl ⟨none, _, if_pos taken⟩

/-- Every thread of a probe can go on, except one that was not started yet and a send that
the receiver can still receive. -/
private theorem thread_goes_on {thread : Nat} {op : ProbeCall} {next : op.Answer → ProbeThreadProgram}
    (run : Runs (ProbeStep use) probeCrowd seen crowd) (running : crowd.process thread = .running (.call op next)) :
    (∃ answer after, ProbeHost.respond thread op answer crowd.shared = some after) ∨ (∃ which, op = .enter which) ∨
      op = .sent ∧ crowd.shared.receiving = true := by
  obtain ⟨views, kept⟩ := probe_kept run
  cases op with
  | enter which => exact .inr (.inl ⟨which, rfl⟩)
  | sent =>
    obtain ⟨life, agreement⟩ := kept.agrees
    obtain ⟨⟨started, blocked⟩, _⟩ := kept.running thread _ running none .sent rfl
    obtain rfl : thread = 1 := agreement.seat blocked rfl
    rcases agreement.sent_answered blocked with answered | receiving
    · exact .inl answered
    · exact .inr (.inr ⟨rfl, receiving⟩)
  | startStarter | spawn | kill | startReaper | startReader => exact .inl ⟨.error "", _, rfl⟩
  | recvTimeout | recvLine => exact .inl ⟨.timeout, _, rfl⟩
  | tryRecv => exact .inl ⟨.empty, _, rfl⟩
  | waitid => exact .inl ⟨.ok none, _, rfl⟩
  | loadCancel | deadlinePassed | reapDeadlinePassed | takeStdout => exact .inl ⟨true, _, rfl⟩
  | _ => exact .inl ⟨(), _, rfl⟩

/-- A started probe has one owner at a time that ends it. Whatever the interleaving, what
happens to it is the beginning of one of its three routes, so it is returned or cleaned up
by one of the two threads, at most once, and each cleanup signals the group and the pid
before the one reap and never after. When `start_probe` has returned and the starter thread
has ended it was returned or cleaned up, and no thread is stuck before that. -/
theorem started_probe_has_one_owner (run : Runs (ProbeStep use) probeCrowd seen crowd) :
    (actsOf seen = [] ∨ ∃ child, ∃ route ∈ ProbeChild.routes child, actsOf seen <+: route) ∧
      (crowd.shared.receiving = false → crowd.shared.starter = .ended →
        actsOf seen = [] ∨ ∃ child, [.spawned child, .returned child] <+: actsOf seen ∨
          ∃ cleaner ∈ [Cleaner.giveUp, .starter],
            [.spawned child, .cleanup cleaner child, .signalled (-child.pid), .signalled child.pid] <+: actsOf seen) ∧
      ∀ thread (op : ProbeCall) (next : op.Answer → ProbeThreadProgram), crowd.process thread = .running (.call op next) →
        (∃ answer after, ProbeHost.respond thread op answer crowd.shared = some after) ∨ (∃ which, op = .enter which) ∨
          op = .sent ∧ crowd.shared.receiving = true := by
  obtain ⟨views, kept⟩ := probe_kept run
  obtain ⟨life, agreement⟩ := kept.agrees
  refine ⟨?_, agreement.settled, fun _ _ _ running => thread_goes_on run running⟩
  rw [show actsOf seen = life.history from agreement.history]
  rcases life.history_begins with rfl | ⟨child, cleaner, begins⟩
  · exact .inl rfl
  · exact .inr ⟨child, _, ProbeLife.reaped_mem_routes cleaner child, begins⟩

def lateChild : ProbeChild := ⟨7, by decide⟩

def lateStart (host : ProbeHost) : (op : ProbeCall) → op.Answer
  | .startStarter _ | .kill _ | .startReaper _ _ | .startReader _ => .ok ()
  | .spawn => .ok lateChild
  | .sent => host.offered
  | .loadCancel | .deadlinePassed | .reapDeadlinePassed | .takeStdout => true
  | .recvTimeout | .recvLine => .timeout
  | .tryRecv => .empty
  | .waitid _ => .ok (some (.exited 0))
  | .enter _ | .offer _ | .eprintln _ | .finish | .giveBack _ | .cleanup _ _ | .sleep | .wait _ => ()

/-- The caller gives up before the starter thread runs, which then has the probe to itself. -/
theorem started_probe_has_one_owner_late :
    ∃ (seen : List (CrowdEvent probePort)) (crowd : Crowd probePort (Option (Except String String)) ProbeHost),
      Runs (ProbeStep .headSha) probeCrowd seen crowd ∧ crowd.shared.receiving = false ∧ crowd.shared.starter = .ended ∧
      actsOf seen = [.spawned lateChild, .cleanup .starter lateChild, .signalled (-7), .signalled 7, .reaped lateChild] ∧
      (actsOf seen = [] ∨ ∃ child, ∃ route ∈ ProbeChild.routes child, actsOf seen <+: route) := by
  have called : drive (ProbeHost.respond 0) lateStart 5 (.initial, callerThread .headSha 1) =
      some (⟨true, .ready, false, none, false, none⟩, .done _) := rfl
  have ended : drive (ProbeHost.respond 1) lateStart 10 (⟨true, .ready, false, none, false, none⟩, starterThread .headSha 1) =
      some (⟨true, .ended, false, none, false, none⟩, .done _) := rfl
  have first : ProbeStep .headSha probeCrowd (.start 0) _ := .start rfl (.caller 1)
  have caller := (Runs.single first).append (Crowd.alone rfl rfl (drive_runs called))
  have both := caller.next (@Crowd.Step.start _ _ _ _ _ _ 1 _ rfl (.starter 1))
  have whole := both.append (Crowd.alone rfl rfl (drive_runs ended))
  have facts := started_probe_has_one_owner whole
  exact ⟨_, _, whole, rfl, rfl, rfl, facts.1⟩

end UringMqtt.Bench
