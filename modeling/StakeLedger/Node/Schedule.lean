import StakeLedger.Node.Startup

/-!
# The schedule of tasks

The tasks of the components take turns, in the order in which they became able to run. A turn
ends when the task has to wait: for a time, for room on the channel, or for the request to
stop. It also ends when the task has spent its strength, which lasts for 128 steps, and then
the task is interrupted. One that is interrupted while it sends has its room on the channel
already, so that no other task can take it. Time stands still while a task can run.

* `Schedule.turn` is one turn. `Schedule.round` is the turns between two looks at the channel,
  61 at most; tasks interrupted in a round line up after it, the last one first.
* `Schedule.collect` takes signals off the channel and lets the tasks that waited for room send,
  `Schedule.close` ends the channel.
* `Schedule.wake` advances the time, `Schedule.stop` requests a component to stop, and
  `Schedule.runAll` lets all tasks run until none can.

What a component computes between two actions of its script takes no time. A component that blocks
the thread, so that the deadline passes while nobody else can run, is not described.
-/

namespace StakeLedger

/-- The task of a component: what it has yet to do. -/
structure Task where
  /-- The position of the component. -/
  component : Nat
  script : List Action
  /-- A signal that the task has yet to put on the channel. -/
  unsent : Option Signal := none
  /-- Whether room on the channel is kept for that signal. -/
  hasRoom : Bool := false
  /-- A request to stop that the task has not noticed yet. -/
  stopRequested : Bool := false
  deriving DecidableEq

/-- The strength of a task at the start of a turn: the number of waits and signals that it can
get through. -/
def Task.strength : Nat := 128

/-- What a log tells about a component. -/
inductive Occurrence
  /-- It reports that it is ready. -/
  | ready
  /-- It fails. -/
  | failed
  /-- It is told to stop. -/
  | stopping
  deriving DecidableEq

/-- A line of the log. -/
structure LogEntry where
  occurrence : Occurrence
  /-- The position of the component. -/
  component : Nat
  time : Nat
  deriving DecidableEq

/-- Where all tasks stand. A task that has not ended is in one of the five lists. -/
structure Schedule where
  /-- The milliseconds since the start. -/
  now : Nat := 0
  /-- The tasks that can run. -/
  runnable : List Task := []
  /-- The tasks that were interrupted in this round. -/
  interrupted : List Task := []
  /-- The tasks that wait for a time. -/
  sleeping : List (Nat × Task) := []
  /-- The tasks that wait for room on the channel. -/
  sending : List Task := []
  /-- The tasks that wait for the request to stop. -/
  idle : List Task := []
  /-- The signals on the channel. -/
  inbox : List Signal := []
  /-- How many tasks have room on the channel kept for them. -/
  reserved : Nat := 0
  /-- How many signals the channel holds. -/
  capacity : Nat := 1
  /-- Whether anybody listens to the channel. -/
  isOpen : Bool := true
  /-- The lines of the log, the last one first. -/
  recorded : List LogEntry := []
  deriving DecidableEq

/-- What came of an attempt to send a signal. -/
inductive Delivery
  /-- The signal is sent, or nobody listens. The task goes on with the strength left. -/
  | done (schedule : Schedule) (strength : Nat)
  /-- The task has to wait. -/
  | pending (schedule : Schedule)

namespace Schedule

/-- The schedule with a line added to the log. -/
def record (s : Schedule) (occurrence : Occurrence) (component : Nat) : Schedule :=
  { s with recorded := ⟨occurrence, component, s.now⟩ :: s.recorded }

/-- The log. -/
def log (s : Schedule) : List LogEntry := s.recorded.reverse

/-! ## Turns -/

/-- What comes of an attempt of a task to send a signal and to go on with a script. A task
without strength gets room on the channel all the same, and keeps it while it is interrupted.
It takes no strength to find out that nobody listens. -/
def deliver (s : Schedule) (t : Task) (signal : Signal) (rest : List Action) (strength : Nat) : Delivery :=
  let t := { t with unsent := some signal, script := rest }
  if !s.isOpen then .done s strength
  else if !t.hasRoom && s.capacity ≤ s.inbox.length + s.reserved then
    .pending { s with sending := s.sending ++ [t] }
  else
    let others := if t.hasRoom then s.reserved - 1 else s.reserved
    match strength with
    | 0 => .pending { s with reserved := others + 1, interrupted := s.interrupted ++ [{ t with hasRoom := true }] }
    | strength + 1 => .done { s with reserved := others, inbox := s.inbox ++ [signal] } strength

/-- The schedule after a task with the given strength did what it can of its script. -/
def run (s : Schedule) (t : Task) (strength : Nat) : List Action → Schedule
  | [] => s
  | .waitUntil time :: rest =>
    match strength with
    | 0 => { s with interrupted := s.interrupted ++ [{ t with script := .waitUntil time :: rest }] }
    | strength + 1 =>
      if time ≤ s.now then s.run t strength rest
      else { s with sleeping := s.sleeping ++ [(time, { t with script := .waitUntil time :: rest })] }
  | .report :: rest =>
    match (s.record .ready t.component).deliver t (.ready t.component) rest strength with
    | .done s strength => s.run t strength rest
    | .pending s => s
  | .fail cause :: _ =>
    match (s.record .failed t.component).deliver t (.failed t.component cause) [] strength with
    | .done s _ => s
    | .pending s => s
  | .awaitStop :: rest =>
    if t.stopRequested then s.run { t with stopRequested := false } strength rest
    else { s with idle := s.idle ++ [{ t with script := .awaitStop :: rest }] }

/-- The schedule after the turn of a task. -/
def turn (s : Schedule) (t : Task) : Schedule :=
  match t.unsent with
  | none => s.run t Task.strength t.script
  | some signal =>
    match s.deliver t signal t.script Task.strength with
    | .done s strength => s.run { t with unsent := none, hasRoom := false } strength t.script
    | .pending s => s

/-- The number of turns in a round. -/
def roundLength : Nat := 61

/-- The schedule after a round of turns. -/
def round (s : Schedule) : Schedule :=
  let s := (s.runnable.take roundLength).foldl turn { s with runnable := s.runnable.drop roundLength }
  { s with runnable := s.runnable ++ s.interrupted.reverse, interrupted := [] }

/-- The tasks that have not ended. -/
def tasks (s : Schedule) : List Task :=
  s.runnable ++ s.interrupted ++ s.sleeping.map Prod.snd ++ s.sending ++ s.idle

/-- Whether all tasks have ended. -/
def isOver (s : Schedule) : Bool := s.tasks.isEmpty

/-- More than the number of turns that can be taken and signals that can be received before
the time advances: for each action a task may be interrupted once and wait for room once. -/
def patience (s : Schedule) : Nat :=
  s.inbox.length + 4 * ((s.tasks.flatMap Task.script).length + 2 * s.tasks.length) + 1

/-- The schedule after rounds, the given number at most, until no task can run. -/
def rounds (s : Schedule) : Nat → Schedule
  | 0 => s
  | n + 1 => if s.runnable.isEmpty then s else s.round.rounds n

/-- The schedule after all tasks that can run did so, where nobody listens to the channel. -/
def runAll (s : Schedule) : Schedule := s.rounds s.patience

/-! ## The channel -/

/-- The schedule after signals were taken off the channel, the given number at most. As many
of the tasks that waited for room get it. -/
def collect (s : Schedule) (limit : Nat) : Schedule :=
  let count := min limit s.inbox.length
  let admitted := s.sending.take count
  { s with
    inbox := s.inbox.drop count
    sending := s.sending.drop count
    reserved := s.reserved + admitted.length
    runnable := s.runnable ++ admitted.map fun t => { t with hasRoom := true } }

/-- The schedule after nobody listens to the channel any more. The tasks that waited for room
can run, and what they had to say is lost. -/
def close (s : Schedule) : Schedule :=
  { s with isOpen := false, inbox := [], reserved := 0, sending := [], runnable := s.runnable ++ s.sending }

/-! ## Time and requests to stop -/

/-- The schedule at a later time. The tasks that waited for it can run. -/
def wake (s : Schedule) (time : Nat) : Schedule :=
  { s with
    now := time
    sleeping := s.sleeping.filter fun (due, _) => time < due
    runnable := s.runnable ++ (s.sleeping.filter fun (due, _) => due ≤ time).map Prod.snd }

/-- The task with the request to stop, if it belongs to the given component. -/
def flag (component : Nat) (t : Task) : Task :=
  if t.component = component then { t with stopRequested := true } else t

/-- The schedule after a component was told to stop. Its task can run if that is what it
waited for, and notices later otherwise. -/
def stop (s : Schedule) (component : Nat) : Schedule :=
  let s := s.record .stopping component
  let (told, others) := s.idle.partition fun t => t.component = component
  { s with
    idle := others
    runnable := (s.runnable ++ told).map (flag component)
    interrupted := s.interrupted.map (flag component)
    sleeping := s.sleeping.map fun (due, t) => (due, flag component t)
    sending := s.sending.map (flag component) }

/-- The schedule after all tasks were put to an end. -/
def abort (s : Schedule) : Schedule :=
  { s with runnable := [], interrupted := [], sleeping := [], sending := [], idle := [] }

end Schedule

end StakeLedger
