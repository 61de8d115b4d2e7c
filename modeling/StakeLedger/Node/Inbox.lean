import StakeLedger.Node.Engine
import StakeLedger.Node.Supervision

/-!
# The inbox

Clients submit entities to an engine through an inbox of limited capacity. One loop takes
the requests out of it, in order, and answers each with what the engine says. When the loop
has ended, everybody who waits for an answer, or asks for one, is told that the channel is
closed.

* `EngineService.step` is what an event does. The events may come in any order: clients
  submit and enter the inbox as long as there is room, the loop serves a request or, once
  that is requested, halts.
* `EngineService.ask`, `launch` and `shutdown` are the runs in which the loop takes its turn
  before anything else happens.
-/

namespace StakeLedger

/-- An entity that a client submits. -/
structure Request where
  client : Nat
  entity : EncodedEntity
  deriving DecidableEq

/-- What the loop of a service is doing. -/
inductive Phase
  /-- It has not been started. -/
  | idle
  /-- It serves requests. -/
  | serving
  /-- It has ended. -/
  | ended
  deriving DecidableEq

/-- An engine behind an inbox. -/
structure EngineService where
  engine : Engine
  chain : Chain
  /-- How many requests the inbox holds. -/
  capacity : Nat
  phase : Phase := .idle
  /-- Whether the loop is to end. -/
  stopRequested : Bool := false
  /-- The requests that the loop has yet to take, the first one first. -/
  inbox : List Request := []
  /-- The requests of clients that wait for room in the inbox. -/
  waiting : List Request := []

/-- Something that happens to a service. -/
inductive ServiceEvent
  /-- A client submits an entity. -/
  | submit (request : Request)
  /-- The request of a client enters the inbox. -/
  | enter (client : Nat)
  /-- A client no longer waits. -/
  | abandon (client : Nat)
  /-- The loop starts. -/
  | start
  /-- The loop takes a request from the inbox and answers it. -/
  | serve
  /-- The loop is told to end. -/
  | requestStop
  /-- The loop ends. -/
  | halt
  deriving DecidableEq

/-- Something that can be seen of a service. -/
inductive ServiceAct
  /-- A request entered the inbox. -/
  | entered (request : Request)
  /-- The engine processed a request, with this result. -/
  | processed (request : Request) (result : Except NodeError Verdict)
  /-- The engine broke down on a request. -/
  | brokeDown (request : Request)
  /-- A client was answered. -/
  | answered (client : Nat) (reply : Except NodeError Verdict)

namespace EngineService

/-- The largest capacity of an inbox. -/
def maxCapacity : Nat := 0x1fffffffffffffff

/-- A service that has not been started, unless the capacity is too large. The inbox holds one
request at least. -/
def ofCapacity? (engine : Engine) (chain : Chain) (capacity : Nat) : Option EngineService :=
  if capacity ≤ maxCapacity then some { engine, chain, capacity := max 1 capacity } else none

/-- The answers to clients whose requests are not processed any more. -/
def refusals (requests : List Request) : List ServiceAct :=
  requests.map fun r => .answered r.client (.error .channelClosed)

/-- The service after its loop ended, and the answers to all who wait. -/
def ending (s : EngineService) : EngineService × List ServiceAct :=
  ({ s with phase := .ended, inbox := [], waiting := [] }, refusals (s.inbox ++ s.waiting))

/-- The service after the first request in the inbox. A request on which the engine breaks
down has no result. It ends the loop, and is answered as those behind it are, which the loop
never took. -/
def serve (s : EngineService) : EngineService × List ServiceAct :=
  match s.inbox with
  | [] => (s, [])
  | r :: rest =>
    match s.engine.process s.chain r.entity with
    | (chain, .ok verdict) =>
      ({ s with chain, inbox := rest }, [.processed r (.ok verdict), .answered r.client (.ok verdict)])
    | (chain, .error (.failed cause)) =>
      ({ s with chain, inbox := rest }, [.processed r (.error cause), .answered r.client (.error cause)])
    | (chain, .error .heightOverflow) =>
      let (s, refused) := { s with chain }.ending
      (s, .brokeDown r :: refused)

/-- The service after an event, and what can be seen of it. An event that is not possible
leaves the service as it is. -/
def step (s : EngineService) : ServiceEvent → EngineService × List ServiceAct
  | .submit r =>
    if s.phase = .ended then (s, refusals [r]) else ({ s with waiting := s.waiting ++ [r] }, [])
  | .enter client =>
    match s.waiting.find? fun r => r.client = client with
    | none => (s, [])
    | some r =>
      if s.inbox.length < s.capacity then
        ({ s with waiting := s.waiting.erase r, inbox := s.inbox ++ [r] }, [.entered r])
      else (s, [])
  | .abandon client => ({ s with waiting := s.waiting.filter fun r => r.client ≠ client }, [])
  | .start => if s.phase = .idle then ({ s with phase := .serving }, []) else (s, [])
  | .serve => if s.phase = .serving then s.serve else (s, [])
  | .requestStop => ({ s with stopRequested := true }, [])
  | .halt => if s.phase = .serving ∧ s.stopRequested then s.ending else (s, [])

/-- The service after events, one after the other, and what can be seen of them. -/
def steps (s : EngineService) : List ServiceEvent → EngineService × List ServiceAct
  | [] => (s, [])
  | event :: rest =>
    let (s, acts) := s.step event
    let (s, later) := steps s rest
    (s, acts ++ later)

/-! ## Runs in which the loop takes its turn -/

/-- The answer that a client was given. -/
def reply? (acts : List ServiceAct) (client : Nat) : Option (Except NodeError Verdict) :=
  acts.findSome? fun
    | .answered c reply => if c = client then some reply else none
    | _ => none

/-- The service after a client submitted an entity and waited as long as it cared to, and
the answer if there was one. Where the inbox is full the request enters once those before it
are served. -/
def ask (s : EngineService) (r : Request) : EngineService × Option (Except NodeError Verdict) :=
  let (s, acts) := s.steps ([.submit r, .enter r.client] ++ List.replicate s.inbox.length .serve ++
    [.enter r.client, .serve, .abandon r.client])
  (s, reply? acts r.client)

/-- The service as a component of a node. It can be started only once. -/
def component (s : EngineService) : Component where
  name := "engine"
  script :=
    if s.phase = .idle then [.report, .awaitStop]
    else [.fail (.component "engine" "already started")]

/-- The service after a turn of its loop, which has the given strength. -/
def takeTurn (s : EngineService) (strength : Nat) : EngineService :=
  (s.steps (List.replicate (min strength s.inbox.length) .serve)).1

/-- The strength that it takes to start the loop: for the inbox, and for the report. -/
def startingCost : Nat := 2

/-- The service after a supervisor started it, and what came of the start. The loop serves
what is in the inbox, as far as it gets in its turn. -/
def launch (s : EngineService) (timeout : Nat) : EngineService × Except NodeError Unit :=
  match (Supervision.start [s.component] timeout).outcome with
  | .ok () => ((s.step .start).1.takeTurn (Task.strength - startingCost), .ok ())
  | .error e => (s.takeTurn Task.strength, .error e)

/-- The service after its supervisor stopped it. One that was never started has none. -/
def shutdown (s : EngineService) : EngineService :=
  if s.phase = .idle then s else (s.steps [.requestStop, .halt]).1

end EngineService

end StakeLedger
