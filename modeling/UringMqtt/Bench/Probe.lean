import UringMqtt.Bench.CpuList
import UringMqtt.Lib.Effects

/-! The bounded probes of the runner, `head_sha_with` and `tool_version` of
`bench/src/runner.rs`: a probe is started on a thread of its own, handed over through a
rendezvous channel, and ended by `cleanup_probe` whoever has it then. -/

namespace UringMqtt.Bench
open Lib Program

structure Probe where
  command : String
  label : String
  timeoutSecs : Nat
deriving DecidableEq

def gitHeadTimeoutSecs : Nat := 5
def toolVersionTimeoutSecs : Nat := 5
def toolVersionStdoutBytesMax : Nat := 4096
def sigkillReapTimeoutSecs : Nat := 1

def gitHeadProbe : Probe := ⟨"git rev-parse", "git-head", gitHeadTimeoutSecs⟩

def toolVersionProbe : Probe := ⟨"--version", "version-probe", toolVersionTimeoutSecs⟩

/-- A started child by its `id()`: the kernel's pids are positive and fit `pid_t`. -/
def ProbeChild : Type := { id : UInt32 // 0 < id.toNat ∧ id.toNat < 2 ^ 31 }

instance : DecidableEq ProbeChild := inferInstanceAs (DecidableEq { id : UInt32 // 0 < id.toNat ∧ id.toNat < 2 ^ 31 })

/-- `Child` or the text of a failed start. -/
abbrev Started := Except String ProbeChild

/-- On whose behalf `cleanup_probe` runs: of `abandon_startup`, of the starter thread, or
of the caller that `start_probe` returned the probe to. -/
inductive Cleaner
  | giveUp
  | starter
  | caller
deriving DecidableEq

inductive RecvTimeout (α : Type)
  | ok (value : α)
  | timeout
  | disconnected
deriving DecidableEq

inductive TryRecv (α : Type)
  | ok (value : α)
  | empty
  | disconnected
deriving DecidableEq

inductive StdoutLine
  | line (text : String)
  | eof
  | failed (error : String)
deriving DecidableEq

/-- `WaitStatus` but `StillAlive`; `other` with its `Debug` text. -/
inductive WaitStatus
  | exited (code : Int)
  | signaled (signal : String)
  | other (text : String)
deriving DecidableEq

inductive ProbeThread
  | caller
  | starter
  | reaper (child : ProbeChild)
deriving DecidableEq

inductive ProbeCall
  /-- A thread runs for the first time. -/
  | enter (thread : ProbeThread)
  /-- `Builder::spawn` of the thread `bench-runner-<label>-starter`. -/
  | startStarter (name : String)
  /-- `Command::spawn`. -/
  | spawn
  /-- `send` on the channel of capacity zero: it waits for the receiver. -/
  | offer (started : Started)
  /-- That `send` returns, with its value when the receiver is gone. -/
  | sent
  | eprintln (text : String)
  /-- The starter thread ends and drops its sender. -/
  | finish
  | loadCancel
  /-- Whether the probe's deadline leaves no time. -/
  | deadlinePassed
  | recvTimeout
  | tryRecv
  /-- `start_probe` returns and drops its receiver. -/
  | giveBack (started : Started)
  /-- `cleanup_probe` is called. -/
  | cleanup (cleaner : Cleaner) (child : ProbeChild)
  /-- `signal(target, SIGKILL)`. -/
  | kill (target : Int)
  /-- `waitid` with `WEXITED | WNOWAIT | WNOHANG`. -/
  | waitid (pid : Int)
  /-- Whether the deadline of the reap leaves no time. -/
  | reapDeadlinePassed
  | sleep
  /-- `child.wait()`. -/
  | wait (child : ProbeChild)
  /-- `Builder::spawn` of the thread `bench-runner-<label>-reaper`. -/
  | startReaper (name : String) (child : ProbeChild)
  /-- `child.stdout.take()`: whether it was piped. -/
  | takeStdout
  /-- `Builder::spawn` of the thread `bench-runner-<label>` that reads the lines. -/
  | startReader (name : String)
  | recvLine
deriving DecidableEq

abbrev ProbeCall.Answer : ProbeCall → Type
  | .startStarter _ | .kill _ | .startReaper _ _ | .startReader _ => Except String Unit
  | .spawn => Started
  | .sent => Option Started
  | .loadCancel | .deadlinePassed | .reapDeadlinePassed | .takeStdout => Bool
  | .recvTimeout => RecvTimeout Started
  | .tryRecv => TryRecv Started
  | .waitid _ => Except String (Option WaitStatus)
  | .recvLine => RecvTimeout StdoutLine
  | _ => Unit

/-- A loop goes on past every bound on its rounds. -/
inductive ProbeHalt
  | endless

@[reducible] def probePort : Interface := ⟨ProbeCall, ProbeCall.Answer, ProbeHalt⟩

abbrev ProbeProgram := Program probePort

abbrev request (op : ProbeCall) : ProbeProgram op.Answer := @perform probePort op

/-! ### Cleanup -/

/-- `i32::try_from(child.id()).ok()`. -/
def rawPid (child : ProbeChild) : Option Int := if child.1.toNat < 2 ^ 31 then some child.1.toNat else none

def probeExit (child : ProbeChild) : ProbeProgram (Except String (Option WaitStatus)) :=
  match rawPid child with
  | none => pure (.error "out of range integral type conversion attempted")
  | some pid => request (.waitid pid)

def sendKill (target : Option Int) (what : String) (failures : List String) : ProbeProgram (List String) :=
  match target with
  | none => pure failures
  | some target => do
    match ← request (.kill target) with
    | .ok () => pure failures
    | .error error => pure (failures ++ [s!"{what} SIGKILL: {error}"])

def spawnReaper (label : String) (child : ProbeChild) : ProbeProgram (Except String Unit) :=
  request (.startReaper s!"bench-runner-{label}-reaper" child)

/-- The end of `reap_probe` for a probe that it could not reap. -/
def leaveUnreaped (probe : Probe) (child : ProbeChild) (signalFailures : List String) (failure : String) :
    ProbeProgram (Except String Unit) := do
  let error := signalFailures.foldl (fun text signalFailure => text ++ "; " ++ signalFailure) s!"{probe.command} cleanup: {failure}"
  match ← spawnReaper probe.label child with
  | .ok () => pure (.error error)
  | .error e => pure (.error s!"{error}; reaper thread: {e}")

def reapProbe (probe : Probe) (child : ProbeChild) (signalFailures : List String) : Nat → ProbeProgram (Except String Unit)
  | 0 => .fail .endless
  | fuel + 1 => do
    match ← probeExit child with
    | .ok (some _) => do
      request (.wait child)
      pure (.ok ())
    | .error e => leaveUnreaped probe child signalFailures s!"probe {child.1} exit check failed: {e}"
    | .ok none =>
      if ← request .reapDeadlinePassed then
        leaveUnreaped probe child signalFailures s!"probe {child.1} still running {sigkillReapTimeoutSecs}s after SIGKILL"
      else do
        request .sleep
        reapProbe probe child signalFailures fuel

def cleanupProbe (cleaner : Cleaner) (fuel : Nat) (probe : Probe) (child : ProbeChild) : ProbeProgram (Except String Unit) := do
  request (.cleanup cleaner child)
  let pid := rawPid child
  let group := pid.map fun pid => -pid
  let signalFailures ← sendKill group "group" []
  let signalFailures ← sendKill pid "pid" signalFailures
  reapProbe probe child signalFailures fuel

/-! ### Startup -/

def abandonedStartupError (probe : Probe) (refusal : String) : String :=
  s!"{refusal}; {probe.command} gave up on a probe that had not finished " ++
    "starting; a probe that starts after this is signalled only while " ++
    "this process lives, and is otherwise left to init"

def abandonStartup (fuel : Nat) (probe : Probe) (refusal : String) : ProbeProgram String := do
  match ← request .tryRecv with
  | .ok (.ok child) => do
    match ← cleanupProbe .giveUp fuel probe child with
    | .ok () => pure refusal
    | .error cleanup => pure s!"{refusal}; {cleanup}"
  | .ok (.error _) | .disconnected => pure refusal
  | .empty => pure (abandonedStartupError probe refusal)

def awaitStarted (reaps : Nat) (probe : Probe) : Nat → ProbeProgram Started
  | 0 => .fail .endless
  | fuel + 1 => do
    if ← request .loadCancel then
      return .error (← abandonStartup reaps probe "cancelled")
    else if ← request .deadlinePassed then
      return .error (← abandonStartup reaps probe s!"{probe.command} did not answer within {probe.timeoutSecs}s")
    else
      match ← request .recvTimeout with
      | .ok started => pure started
      | .timeout => awaitStarted reaps probe fuel
      | .disconnected => pure (.error s!"{probe.command} starter stopped")

def startedBy (fuel : Nat) (probe : Probe) : Except String Unit → ProbeProgram Started
  | .error e => pure (.error s!"{probe.command} starter thread: {e}")
  | .ok () => awaitStarted fuel probe fuel

def startProbe (fuel : Nat) (probe : Probe) : ProbeProgram Started := do
  let starting ← request (.startStarter s!"bench-runner-{probe.label}-starter")
  let started ← startedBy fuel probe starting
  request (.giveBack started)
  pure started

def afterSend (fuel : Nat) (probe : Probe) : Option Started → ProbeProgram Unit
  | some (.ok child) => do
    match ← cleanupProbe .starter fuel probe child with
    | .ok () => pure ()
    | .error e => request (.eprintln e)
  | some (.error _) | none => pure ()

/-- What the starter thread of `start_probe` does. -/
def starter (fuel : Nat) (probe : Probe) : ProbeProgram Unit := do
  let spawned := (← request .spawn).mapError fun e => s!"{probe.command}: {e}"
  request (.offer spawned)
  let unsent ← request .sent
  afterSend fuel probe unsent
  request .finish

/-! ### The answer of a probe -/

def probeExitNote : WaitStatus → String
  | .exited code => s!"code {code}"
  | .signaled signal => s!"signal {signal}"
  | .other text => text

def trimmed (line : String) : String := String.ofList (trim line.toList)

def endsLine (line : String) : Bool := line.toList.getLast? = some '\n'

def spawnStdoutReader (label : String) : ProbeProgram (Except String Unit) := do
  let started ← request (.startReader s!"bench-runner-{label}")
  pure (started.mapError fun e => s!"spawn {label} stdout reader: {e}")

def knownExit (child : ProbeChild) : Option WaitStatus → ProbeProgram (Except String (Option WaitStatus))
  | some status => pure (.ok (some status))
  | none => probeExit child

def headShaOf (status : Option WaitStatus) (first : Option String) (eof : Bool) : Option (Except String String) :=
  match status with
  | none => none
  | some status =>
    if status ≠ .exited 0 then some (.error s!"git rev-parse exited with {probeExitNote status}")
    else match first with
      | some sha => some (.ok sha)
      | none => if eof then some (.error "git rev-parse printed no line") else none

def wholeLine (line : String) : Option String :=
  if endsLine line ∧ trimmed line ≠ "" then some (trimmed line) else none

def waitForHeadSha (child : ProbeChild) : Nat → Option String → Bool → Option WaitStatus → ProbeProgram (Except String String)
  | 0, _, _, _ => .fail .endless
  | fuel + 1, first, eof, status => do
    if ← request .loadCancel then pure (.error "cancelled")
    else if ← request .deadlinePassed then pure (.error s!"git rev-parse did not answer within {gitHeadTimeoutSecs}s")
    else
      match ← knownExit child status with
      | .error e => pure (.error s!"git rev-parse: {e}")
      | .ok status =>
        match headShaOf status first eof with
        | some result => pure result
        | none =>
          if eof then do
            request .sleep
            waitForHeadSha child fuel first eof status
          else
            match ← request .recvLine with
            | .ok (.line line) => waitForHeadSha child fuel (first.or (wholeLine line)) eof status
            | .ok .eof | .disconnected => waitForHeadSha child fuel first true status
            | .ok (.failed e) => pure (.error s!"read git rev-parse stdout: {e}")
            | .timeout => waitForHeadSha child fuel first eof status

def recvVersionLine : Nat → ProbeProgram (Except String String)
  | 0 => .fail .endless
  | fuel + 1 => do
    if ← request .loadCancel then pure (.error "cancelled")
    else if ← request .deadlinePassed then pure (.error s!"--version did not answer within {toolVersionTimeoutSecs}s")
    else
      match ← request .recvLine with
      | .ok (.line line) =>
        if trimmed line = "" then recvVersionLine fuel
        else if endsLine line then pure (.ok (trimmed line))
        else pure (.error s!"--version printed a line with no newline within {toolVersionStdoutBytesMax} bytes")
      | .ok .eof => pure (.error "--version printed no non-blank line")
      | .ok (.failed e) => pure (.error s!"read --version stdout: {e}")
      | .timeout => recvVersionLine fuel
      | .disconnected => pure (.error "--version stdout reader stopped")

/-- The two callers of `start_probe`: `head_sha_with` and `tool_version`. -/
inductive ProbeUse
  | headSha
  | toolVersion
deriving DecidableEq

def ProbeUse.probe : ProbeUse → Probe
  | .headSha => gitHeadProbe
  | .toolVersion => toolVersionProbe

def ProbeUse.notPiped : ProbeUse → String
  | .headSha => "git rev-parse stdout not piped"
  | .toolVersion => "--version stdout not piped"

def ProbeUse.read (use : ProbeUse) (fuel : Nat) (child : ProbeChild) : ProbeProgram (Except String String) :=
  match use with
  | .headSha => waitForHeadSha child fuel none false none
  | .toolVersion => recvVersionLine fuel

def ProbeUse.result (use : ProbeUse) (fuel : Nat) (child : ProbeChild) : ProbeProgram (Except String String) := do
  if ← request .takeStdout then
    match ← spawnStdoutReader use.probe.label with
    | .error e => pure (.error e)
    | .ok () => use.read fuel child
  else pure (.error use.notPiped)

def withCleanup : Except String String → Except String Unit → Except String String
  | result, .ok () => result
  | .ok _, .error cleanup => .error cleanup
  | .error refusal, .error cleanup => .error s!"{refusal}; {cleanup}"

/-- `head_sha_with` and `tool_version`, which differ in how they read the answer. -/
def ProbeUse.run (use : ProbeUse) (fuel : Nat) : ProbeProgram (Except String String) := do
  match ← startProbe fuel use.probe with
  | .error e => pure (.error e)
  | .ok child => do
    let result ← use.result fuel child
    let cleaned ← cleanupProbe .caller fuel use.probe child
    pure (withCleanup result cleaned)

def headShaWith (fuel : Nat) : ProbeProgram (Except String String) := ProbeUse.headSha.run fuel

def toolVersion (fuel : Nat) : ProbeProgram (Except String String) := ProbeUse.toolVersion.run fuel

/-! ### The threads of a probe -/

abbrev ProbeThreadProgram := ProbeProgram (Option (Except String String))

def callerThread (use : ProbeUse) (fuel : Nat) : ProbeThreadProgram := do
  request (.enter .caller)
  let result ← use.run fuel
  pure (some result)

def starterThread (use : ProbeUse) (fuel : Nat) : ProbeThreadProgram := do
  request (.enter .starter)
  starter fuel use.probe
  pure none

def reaperThread (child : ProbeChild) : ProbeThreadProgram := do
  request (.enter (.reaper child))
  request (.wait child)
  pure none

inductive ProbeLaunched (use : ProbeUse) : ProbeThreadProgram → Prop
  | caller (fuel : Nat) : ProbeLaunched use (callerThread use fuel)
  | starter (fuel : Nat) : ProbeLaunched use (starterThread use fuel)
  | reaper (child : ProbeChild) : ProbeLaunched use (reaperThread child)

inductive StarterStage
  | absent
  /-- The thread was started and has not run yet. -/
  | ready
  | running
  /-- The thread has ended or could not be started: its sender is gone. -/
  | ended
deriving DecidableEq

/-- What the threads of one probe share: the channel of `start_probe` and the threads that
were started. The numbers of the threads are 0 for the caller, 1 for the starter and 2 for
the reaper. -/
structure ProbeHost where
  called : Bool
  starter : StarterStage
  /-- The receiver of the channel lives. -/
  receiving : Bool
  /-- The value of a send that waits for the receiver. -/
  offered : Option Started
  /-- The value of the last send was received. -/
  taken : Bool
  /-- The child of a reaper thread that has not run yet. -/
  reaper : Option ProbeChild
deriving DecidableEq

namespace ProbeHost

def initial : ProbeHost := ⟨false, .absent, true, none, false, none⟩

def receive (host : ProbeHost) (started : Started) : Option ProbeHost :=
  if host.receiving = true ∧ host.offered = some started then some { host with offered := none, taken := true } else none

def disconnected (host : ProbeHost) : Option ProbeHost :=
  if host.starter = .ended ∧ host.offered = none then some host else none

def enter (thread : Nat) (host : ProbeHost) : ProbeThread → Option ProbeHost
  | .caller => if thread = 0 ∧ host.called = false then some { host with called := true } else none
  | .starter => if thread = 1 ∧ host.starter = .ready then some { host with starter := .running } else none
  | .reaper child => if thread = 2 ∧ host.reaper = some child then some { host with reaper := none } else none

/-- A rendezvous send completes when its value is received, and returns the value when the
receiver is gone. -/
def respond (thread : Nat) : Respond probePort ProbeHost
  | .enter which, _, host => host.enter thread which
  | .startStarter _, .ok (), host => some { host with starter := .ready }
  | .startStarter _, .error _, host => some { host with starter := .ended }
  | .offer started, _, host => some { host with offered := some started, taken := false }
  | .sent, none, host => if host.taken = true then some host else none
  | .sent, some started, host =>
    if host.receiving = false ∧ host.offered = some started then some { host with offered := none } else none
  | .finish, _, host => some { host with starter := .ended }
  | .recvTimeout, .ok started, host => host.receive started
  | .recvTimeout, .disconnected, host => host.disconnected
  | .tryRecv, .ok started, host => host.receive started
  | .tryRecv, .disconnected, host => host.disconnected
  | .giveBack _, _, host => some { host with receiving := false }
  | .startReaper _ child, .ok (), host => some { host with reaper := some child }
  | _, _, host => some host

end ProbeHost

def probeCrowd : Crowd probePort (Option (Except String String)) ProbeHost := ⟨.initial, fun _ => .unborn⟩

abbrev ProbeStep (use : ProbeUse) := Crowd.Step ProbeHost.respond (ProbeLaunched use)

/-! ### What happens to a probe -/

inductive ProbeAct
  | spawned (child : ProbeChild)
  /-- `start_probe` returns it to its caller. -/
  | returned (child : ProbeChild)
  | cleanup (cleaner : Cleaner) (child : ProbeChild)
  | signalled (target : Int)
  | reaped (child : ProbeChild)
deriving DecidableEq

def probeActs : (op : ProbeCall) → op.Answer → List ProbeAct
  | .spawn, .ok child => [.spawned child]
  | .giveBack (.ok child), _ => [.returned child]
  | .cleanup cleaner child, _ => [.cleanup cleaner child]
  | .kill target, _ => [.signalled target]
  | .wait child, _ => [.reaped child]
  | _, _ => []

end UringMqtt.Bench
