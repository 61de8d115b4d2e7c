import StakeLedger.Node.Schedule
import StakeLedger.SortedBy

/-!
# Supervision

A supervisor starts components and stops them.

* `Supervision.start` starts all of them and waits until there are as many signals of
  readiness as components. A failure or the end of the time to start puts an end to all.
* `Supervision.shutdown` stops them in reverse order and waits until they have ended.
-/

namespace StakeLedger.Supervision

/-- The tasks of components that are about to start. The channel has room for a signal from
each. -/
def spawn (components : List Component) : Schedule :=
  { runnable := components.mapIdx fun i c => { component := i, script := c.script }
    capacity := max 1 components.length }

/-- The time that an action waits for. -/
def time? : Action → Option Nat
  | .waitUntil time => some time
  | _ => none

/-- The start, and the times at which something may happen, in order. -/
def instants (components : List Component) : List Nat :=
  (SortedBy.ofList (0 :: components.flatMap fun c => c.script.filterMap time?) :
    SortedBy fun time : Nat => time).items

/-- A start: what came of it, and where the tasks stood then. -/
structure Started where
  outcome : Except NodeError Unit
  schedule : Schedule

/-- The name of the component of the given position. -/
def nameOf (components : List Component) (position : Nat) : String :=
  match components[position]? with
  | some c => c.name
  | none => ""

/-- How many signals the starter takes off the channel at one look. -/
def attention : Nat := 128

/-- What a start has come to when no task can run and no signal is on the channel, or before
that if it is decided, and where the tasks stand. After each round of turns the starter looks
at the channel; there are at most the given number of rounds. -/
def settle (expected ready : Nat) (s : Schedule) : Nat → Startup × Schedule
  | 0 => (.waiting ready, s)
  | n + 1 =>
    let s := s.round
    match Startup.receive expected ready (s.inbox.take attention) with
    | .waiting ready =>
      let s := s.collect attention
      if s.runnable.isEmpty && s.inbox.isEmpty then (.waiting ready, s) else settle expected ready s n
    | decided => (decided, s)

/-- A start that the time to start put an end to. -/
def giveUp (expected ready time : Nat) (s : Schedule) : Started :=
  ⟨.error (.startupTimeout ready expected), { s with now := time }.abort⟩

/-- The rest of a start that had `ready` signals of readiness, given the times at which
something may happen yet. -/
def proceed (components : List Component) (timeout : Nat) : List Nat → Nat → Schedule → Started
  | [], ready, s => giveUp components.length ready timeout s
  | time :: later, ready, s =>
    if timeout ≤ time then giveUp components.length ready timeout s
    else
      let s := s.wake time
      match settle components.length ready s s.patience with
      | (.complete, s) => ⟨.ok (), s.close⟩
      | (.failed component cause, s) =>
        ⟨.error (.component (nameOf components component) cause.message), s.abort⟩
      | (.waiting ready, s) =>
        if s.isOver then giveUp components.length ready time s
        else proceed components timeout later ready s

/-- A start of components that have the given number of milliseconds to become ready. -/
def start (components : List Component) (timeout : Nat) : Started :=
  if components = [] then ⟨.ok (), (spawn components).close⟩
  else proceed components timeout (instants components) 0 (spawn components)

/-- The schedule after the components, given with their positions, were told to stop, and
the error of the first that refuses. -/
def stopAll (s : Schedule) : List (Component × Nat) → Schedule × Except NodeError Unit
  | [] => (s, .ok ())
  | (c, i) :: rest =>
    let (s, result) := stopAll (s.stop i) rest
    match c.stopFault with
    | some fault => (s, .error fault)
    | none => (s, result)

/-- The schedule after the components were stopped and all tasks have ended, and the error
of the first component that refused. -/
def shutdown (components : List Component) (s : Schedule) : Schedule × Except NodeError Unit :=
  let (s, result) := stopAll s components.zipIdx.reverse
  let later := (instants components).filter fun time => s.now < time
  (later.foldl (fun s time => (s.wake time).runAll) s.runAll, result)

end StakeLedger.Supervision
