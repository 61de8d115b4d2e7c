import StakeLedger.Node.Error

/-!
# Components and their readiness

A node consists of components, each of which runs on its own. A component that has started
says so on a channel that all components share, and one that fails says that.

* `Startup.receive` is what a start has come to after a number of signals. It counts the
  signals of readiness, whichever components they come from, and ends with the first failure.
-/

namespace StakeLedger

/-- What a component does next. -/
inductive Action
  /-- To wait for a time, in milliseconds since the start. -/
  | waitUntil (time : Nat)
  /-- To report readiness. -/
  | report
  /-- To wait until it is told to stop. -/
  | awaitStop
  /-- To fail, and do nothing more. -/
  | fail (cause : NodeError)
  deriving DecidableEq

/-- A component: what it does once it is started, and why it refuses to stop, if it does. -/
structure Component where
  name : String
  script : List Action
  stopFault : Option NodeError := none
  deriving DecidableEq

/-- What a component, given by its position, says on the channel. -/
inductive Signal
  /-- It is ready. -/
  | ready (component : Nat)
  /-- It failed. -/
  | failed (component : Nat) (cause : NodeError)
  deriving DecidableEq

/-- What a start has come to. -/
inductive Startup
  /-- That many signals of readiness arrived, and more are needed. -/
  | waiting (ready : Nat)
  /-- There are as many as there are components. -/
  | complete
  /-- A component failed. -/
  | failed (component : Nat) (cause : NodeError)
  deriving DecidableEq

namespace Startup

/-- What a start of `expected` components has come to that had `ready` signals of readiness
and receives further signals. What follows the signal that decides is not looked at. -/
def receive (expected ready : Nat) : List Signal → Startup
  | [] => waiting ready
  | .ready _ :: rest => if ready + 1 < expected then receive expected (ready + 1) rest else complete
  | .failed component cause :: _ => failed component cause

end Startup

end StakeLedger
