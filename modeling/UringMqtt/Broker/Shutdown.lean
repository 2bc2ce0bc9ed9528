import Mathlib.Data.List.FinRange
import UringMqtt.Broker.Startup

/-! Shutting the broker down: `ShutdownHandle`, `BrokerHandle::drop` and
`WorkerExitGuard::drop` in `src/broker/mod.rs`. The main-side signal ends of all
workers lie in one shared cell; whoever takes them out closes them, and the end of
its stream is a worker's shutdown signal. -/

namespace UringMqtt

/-- Who takes the signal ends: a worker's exit guard, one call of `shutdown` on any
clone of the handle and on any thread, or the drop of the `BrokerHandle`. -/
inductive Party (workers : Nat) where
  | guard (id : Fin workers)
  | caller (call : Nat)
  | owner
deriving DecidableEq

inductive Level where
  | info
  | error
deriving DecidableEq

def Party.line {workers : Nat} : Party workers → Level × String
  | .guard id => (.error, s!"worker {id} exited before shutdown was signaled; shutting down remaining workers")
  | .caller _ | .owner => (.info, "shutdown signaled to workers")

/-- Where a party is in its take. The lock is released before anything is logged or
closed. -/
inductive Taking (workers : Nat) where
  | idle
  | entering
  | took (ends : Option (List (Fin workers)))
  | closing (ends : List (Fin workers))
  | done (took : Bool)
deriving DecidableEq

structure Broker (workers : Nat) where
  startup : Startup workers
  cell : Option (List (Fin workers))
  isOpen : Fin workers → Bool
  taking : Party workers → Taking workers
  lines : List (Level × String)

inductive Actor (workers : Nat) where
  | thread (thread : Thread workers)
  | party (party : Party workers)
deriving DecidableEq

namespace Broker
variable {workers : Nat}

def initial (workers : Nat) : Broker workers where
  startup := .initial workers
  cell := some (List.finRange workers)
  isOpen _ := true
  taking _ := .idle
  lines := []

def move (self : Broker workers) (party : Party workers) (taking : Taking workers) : Broker workers :=
  { self with taking := Function.update self.taking party taking }

inductive Step : Broker workers → Actor workers → Broker workers → Prop
  | startup {broker thread after} (moved : broker.startup.Step thread after) :
      Step broker (.thread thread) { broker with startup := after }
  /-- The worker returned or unwound, and its guard finds the flag armed. -/
  | exits {broker} (id : Fin workers) (armed : broker.startup.stage id = .live)
      (here : broker.taking (.guard id) = .idle) : Step broker (.party (.guard id)) (broker.move (.guard id) .entering)
  | calls {broker} (call : Nat) (started : broker.startup.main = .returned (.ok ()))
      (here : broker.taking (.caller call) = .idle) :
      Step broker (.party (.caller call)) (broker.move (.caller call) .entering)
  | drops {broker} (started : broker.startup.main = .returned (.ok ())) (here : broker.taking .owner = .idle) :
      Step broker (.party .owner) (broker.move .owner .entering)
  | takes {broker} (party : Party workers) (here : broker.taking party = .entering) :
      Step broker (.party party) { broker.move party (.took broker.cell) with cell := none }
  | logs {broker} (party : Party workers) {ends} (here : broker.taking party = .took (some ends)) :
      Step broker (.party party) { broker.move party (.closing ends) with lines := broker.lines ++ [party.line] }
  | misses {broker} (party : Party workers) (here : broker.taking party = .took none) :
      Step broker (.party party) (broker.move party (.done false))
  | closes {broker} (party : Party workers) {id ends} (here : broker.taking party = .closing (id :: ends)) :
      Step broker (.party party)
        { broker.move party (.closing ends) with isOpen := Function.update broker.isOpen id false }
  | finishes {broker} (party : Party workers) (here : broker.taking party = .closing []) :
      Step broker (.party party) (broker.move party (.done true))

end Broker
end UringMqtt
