import PersistentLink.Scenario.Play

/-!
# Results that come late

In a late scenario some calls to the transport and some reads cannot be interrupted. They end
only when they are released, which may be after the manager has given them up. What they yield
then must change nothing, except that a link that comes late is closed.

## Main definitions

- `Late.Step`, `Late.Answer`: what can be done, and what is said of it
- `Late`: the world, and which calls have been awaited
- `Late.step`: takes a step
- `Late.play`: the answers of a whole scenario
-/

namespace PersistentLink.Scenario

namespace Late

/-- What can be done in a late scenario. -/
inductive Step
  /-- a caller asks for the connection -/
  | connect
  /-- a call for the connection is awaited -/
  | await (number : Nat)
  /-- a caller asks for a reset, which is awaited -/
  | close
  /-- a caller sends a payload -/
  | send (payload : Payload)
  /-- a caller registers an observer -/
  | observe
  /-- nothing is held back any more -/
  | release
  /-- the books are asked for -/
  | snapshot
  /-- the events since the last look -/
  | events
  /-- what was called, written, closed or observed since the last look -/
  | trace
  /-- something is waited for that happens by itself -/
  | settle
  /-- the handle is dropped -/
  | drop
  /-- the script is broken here, which is noticed if the handle is there, in case it is needed -/
  | unreadable (needsHandle : Bool) (complaint : String)
  deriving Repr

/-- A trace, with the numbers of calls to the transport in place of those of links. -/
inductive Trace
  | opened (number : Nat)
  | wrote (number : Nat) (payload : Payload) (mode : Mode)
  | closed (number : Nat)
  | observed (payload : Payload)
  deriving Repr

/-- What is said of a step. -/
inductive Answer
  /-- the number of a call for the connection -/
  | number (number : Nat)
  /-- the answer of a call -/
  | result (result : Except Failure Unit)
  | done
  | skipped
  | happened
  | books (books : Books)
  | events (items : List (Received LifecycleEvent))
  | trace (entries : List Trace)
  /-- the step cannot be read -/
  | unreadable (complaint : String)
  deriving Repr

end Late

/-- A world in which some results come late. -/
structure Late where
  world : World
  /-- the calls for the connection that have been awaited -/
  awaited : List Nat := []

namespace Late

/-- Whether a step needs the handle. -/
def Step.needsHandle : Step → Bool
  | .connect | .close | .send _ | .observe | .snapshot | .drop => true
  | .await _ | .release | .events | .trace | .settle => false
  | .unreadable needsHandle _ => needsHandle

/-! ## Questions -/

/-- The number of the call to the transport that opened a link. -/
def openedBy (w : World) (link : LinkId) : Nat :=
  ((w.peers[link]?).map (·.number)).getD link

/-- A trace, with the numbers of calls to the transport in place of those of links. -/
def traceOf (w : World) : Scenario.Trace → Trace
  | .opened number _ => .opened number
  | .wrote link payload mode => .wrote (openedBy w link) payload mode
  | .closed link _ => .closed (openedBy w link)
  | .observed _ payload => .observed payload

/-- The answer of a call. -/
def answerOf (w : World) (call : CallId) : Answer :=
  match (w.calls[call]?).bind (·.answer) with
  | some result => .result result
  | none => .skipped

/-- The calls for the connection, which have numbers of their own here. -/
def connectCalls (w : World) : List CallId :=
  (w.calls.toList.zipIdx.filter (·.1.kind == .connect)).map (·.2)

/-! ## Steps -/

/-- Everything that was held back goes on. -/
def letGo (w : World) : World :=
  let answered := w.heldOpens.foldl (fun w (number, ending) => (w.endOpen number ending).2)
    { w with holding := false, heldOpens := [] }
  w.ensemble.readers.foldl (fun w task => w.join (.reader task.link)) answered

/-- A call for the connection is awaited, which can be done once. -/
def await (s : Late) (number : Nat) : Answer × Late :=
  match (connectCalls s.world)[number]? with
  | some call =>
    if number ∈ s.awaited then (.skipped, s)
    else (answerOf s.world call, { s with awaited := number :: s.awaited })
  | none => (.skipped, s)

/-- Takes a step whose handle is there, and runs the world. -/
def take (s : Late) (step : Step) : Answer × Late :=
  let w := s.world
  match step with
  | .connect =>
    (.number (connectCalls w).length, { s with world := (w.issue .connect).settle })
  | .await number => s.await number
  | .close =>
    let call := w.calls.size
    let w := (w.issue .close).settle
    (answerOf w call, { s with world := w })
  | .send payload => (.done, { s with world := (w.give (.send payload)).settle })
  | .observe =>
    let number := w.observers.size
    let w := { w with observers := w.observers.push {} }.give (.addObserver number)
    (.done, { s with world := w.settle })
  | .release => (.done, { s with world := (letGo w).settle })
  | .snapshot =>
    let (books, w) := w.askBooks
    (.books books, { s with world := w })
  | .events =>
    let (items, w) := w.receive 0
    (.events items, { s with world := w })
  | .trace =>
    (.trace (w.trace.toList.map (traceOf w)), { s with world := { w with trace := #[] } })
  | .settle => (.happened, s)
  | .drop => (.happened, { s with world := { w with handles := [] }.detachIfUnheld.settle })
  | .unreadable _ complaint => (.unreadable complaint, s)

/-- Takes a step and runs the world. -/
def step (s : Late) (step : Step) : Answer × Late :=
  if step.needsHandle && !s.world.handles.any id then (.skipped, s)
  else
    let (answer, s) := s.take step
    (answer, { s with world := s.world.acknowledge.settle })

/-- Takes steps in order. -/
def steps (s : Late) : List Step → List Answer × Late
  | [] => ([], s)
  | step :: rest =>
    let (answer, s) := s.step step
    let (answers, s) := s.steps rest
    (answer :: answers, s)

/-- The world at the start. A call to the transport that the script says nothing about opens a
link. -/
def start (script : List Reply) : Late where
  world :=
    { World.start (.ofEndpoint .standard) script with otherwise := .now (.link {} none) }.settle

/-- The answers of a late scenario, and everything that was logged. -/
def play (script : List Reply) (steps : List Step) : List Answer × List LogRecord :=
  let (answers, s) := (start script).steps steps
  (answers, s.world.log.toList)

/-- What was noticed first of the steps that cannot be read. -/
def complaint? (answers : List Answer) : Option String :=
  answers.findSome? fun
    | .unreadable complaint => some complaint
    | _ => none

end Late

end PersistentLink.Scenario
