import UringMqtt.Bench.Probe

/-! The guard of a run's children, `ChildGuard` of `bench/src/runner.rs`. What the run still
holds at its end gets one SIGKILL and is reaped within a bound, or is left to a thread that
waits for it, if that thread starts. Times are in nanoseconds. -/

namespace UringMqtt.Bench
open Lib Program

inductive ChildLabel
  | endpoint
  | sub
  | generator
  | counter
deriving DecidableEq

def ChildLabel.text : ChildLabel → String
  | .endpoint => "endpoint"
  | .sub => "sub"
  | .generator => "generator"
  | .counter => "counter"

structure GuardedChild where
  label : ChildLabel
  child : ProbeChild
deriving DecidableEq

inductive ChildCall
  /-- `child.try_wait()`: whether it has exited. The status is not read. -/
  | tryWait (child : GuardedChild)
  | procStartTime (child : GuardedChild)
  /-- `signal(target, SIGKILL)`. -/
  | kill (target : Int)
  | now
  | sleep (ns : Nat)
  /-- `Builder::spawn` of the thread that owns the child's `wait`. -/
  | startReaper (name : String) (child : GuardedChild)

/-- A sleep answers with the instant it returns at. -/
abbrev ChildCall.Answer : ChildCall → Type
  | .tryWait _ => Except String Bool
  | .procStartTime _ => Option UInt64
  | .kill _ | .startReaper _ _ => Except String Unit
  | .now | .sleep _ => Nat

@[reducible] def childPort : Interface := ⟨ChildCall, ChildCall.Answer, ProbeHalt⟩

abbrev ChildProgram := Program childPort

abbrev hostCall (op : ChildCall) : ChildProgram op.Answer := @perform childPort op

def waitPollMs : Nat := 50
def guardSigkillReapTimeoutSecs : Nat := 10
def survivorStartUnknown : String := "?"

def startText (ticks : Option UInt64) : String := ticks.elim survivorStartUnknown fun ticks => toString ticks.toNat

def cleanupError (child : GuardedChild) (started what : String) : String :=
  s!"{child.label.text} cleanup: pid {child.child.1} (start {started}) {what}"

/-- The loop of `kill_within_bound`; `none` once the child is reaped. -/
def awaitExit (child : GuardedChild) (started : String) (deadline : Nat) : Nat → ChildProgram (Option String)
  | 0 => .fail .endless
  | fuel + 1 => do
    match ← hostCall (.tryWait child) with
    | .ok true => pure none
    | .error e => pure (some (cleanupError child started s!"exit check failed: {e}"))
    | .ok false => do
      let remaining := deadline - (← hostCall .now)
      if remaining = 0 then
        pure (some (cleanupError child started s!"still running {guardSigkillReapTimeoutSecs}s after SIGKILL"))
      else do
        let _ ← hostCall (.sleep (min remaining (waitPollMs * 10 ^ 6)))
        awaitExit child started deadline fuel

/-- A poll at the start, and one behind each sleep that fits into the bound. -/
def reapPolls : Nat := guardSigkillReapTimeoutSecs * 1000 / waitPollMs + 1

def refusedKill (child : ProbeChild) : ChildProgram (Option String) :=
  match rawPid child with
  | none => pure none
  | some target => do
    match ← hostCall (.kill target) with
    | .ok () => pure none
    | .error e => pure (some e)

def killWithinBound (child : GuardedChild) : ChildProgram (Option String) := do
  match ← hostCall (.tryWait child) with
  | .ok true => pure none
  | .error e => pure (some (cleanupError child survivorStartUnknown s!"exit check failed: {e}"))
  | .ok false => do
    let started := startText (← hostCall (.procStartTime child))
    let refused ← refusedKill child.child
    let deadline := (← hostCall .now) + guardSigkillReapTimeoutSecs * 10 ^ 9
    match ← awaitExit child started deadline reapPolls with
    | none => pure none
    | some error => pure (some (refused.elim error fun e => s!"{error}; SIGKILL: {e}"))

def endChild (child : GuardedChild) : ChildProgram (Option String) := do
  match ← killWithinBound child with
  | none => pure none
  | some error => do
    match ← hostCall (.startReaper s!"bench-runner-{child.label.text}-reaper" child) with
    | .ok () => pure (some error)
    | .error e => pure (some s!"{error}; reaper thread: {e}")

def endEach : List GuardedChild → ChildProgram (List String)
  | [] => pure []
  | child :: rest => do
    let error ← endChild child
    let errors ← endEach rest
    pure (error.toList ++ errors)

/-- A run starts each of its children once. -/
structure ChildGuard where
  children : List GuardedChild
  distinct : children.Nodup

def ChildGuard.endAll (self : ChildGuard) : ChildProgram (List String) := endEach self.children

/-- What the guard acts on. std answers for a child it has reaped; one that is not reaped
keeps its pid and start time. -/
structure ChildHost where
  clock : Nat
  reaped : GuardedChild → Bool
  start : GuardedChild → UInt64
  signals : List Int
  reapers : List GuardedChild

def ChildHost.respond : Respond childPort ChildHost
  | .tryWait child, .ok true, host => some { host with reaped := Function.update host.reaped child true }
  | .tryWait child, _, host => if host.reaped child then none else some host
  | .procStartTime child, ticks, host =>
    if host.reaped child || ticks.all fun ticks => ticks == host.start child then some host else none
  | .kill target, _, host => some { host with signals := host.signals ++ [target] }
  | .now, time, host => if host.clock ≤ time then some { host with clock := time } else none
  | .sleep ns, time, host => if host.clock + ns ≤ time then some { host with clock := time } else none
  | .startReaper _ child, .ok (), host => some { host with reapers := host.reapers ++ [child] }
  -- The closure goes with the thread that did not start, and the child in it unreaped.
  | .startReaper _ _, .error _, host => some host

end UringMqtt.Bench
