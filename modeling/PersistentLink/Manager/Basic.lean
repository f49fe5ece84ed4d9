import PersistentLink.Failure.Basic
import PersistentLink.Log

/-!
# The manager of a connection

One manager owns the link, the outbound queue, the observers and the callers who wait. It
handles one input at a time. Writing a payload and closing a writer take time; while one of
them is under way the manager handles nothing else, and what is left to do is kept as data.

## Main definitions

- `Waiter`: a caller who waits for the connection
- `Resume`: what is left to do once a writer has been closed
- `Activity`: whether the manager is ready, waits for a write or a close, or has ended
- `Manager`: the manager's books
- `Input`: what can happen to a manager
- `Effect`: what a manager does

## Design notes

A handler is a function from the books to new books and a list of effects. A handler that has to
wait ends with the effect it waits for, and the rest of it is run when the outcome comes in. So
a manager is a plain transition system, and every point where it waits is a state of it.
-/

namespace PersistentLink

/-- A caller who waits for the connection. -/
structure Waiter where
  /-- the call that waits -/
  call : CallId
  /-- the call came while the attempt was already in flight -/
  joined : Bool
  /-- the call was carried over to a further attempt once -/
  retried : Bool
  deriving DecidableEq, Repr

/-- What is left to do once a writer has been closed. -/
inductive Resume
  /-- the link was lost to a failed write; `draining` if the queue was being written -/
  | linkLost (error : Failure) (draining : Bool)
  /-- the peer had closed the link -/
  | linkClosed (status : CloseStatus)
  /-- a caller asked for the reset -/
  | reset (call : CallId)
  /-- nobody can give commands any more -/
  | shutdown
  /-- an attempt is to start -/
  | attempt (trigger : Trigger)
  /-- the writer came with the late success of an attempt given up -/
  | nothing
  deriving DecidableEq, Repr

/-- What a manager is doing between two inputs. -/
inductive Activity
  /-- the next input can be handled -/
  | ready
  /-- a single payload is being written -/
  | writing (payload : Payload)
  /-- the queue is being written; `flushed` payloads are done and `payload` is under way -/
  | draining (payload : Payload) (flushed : Nat)
  /-- a writer is being closed -/
  | closing (generation : Nat) (rest : Resume)
  /-- the manager has ended -/
  | ended
  deriving DecidableEq, Repr

/-- The books of a manager. -/
structure Manager where
  /-- address that attempts are made to -/
  url : String
  /-- where the connection stands -/
  phase : Phase := .idle
  /-- number of attempts and resets so far -/
  generation : Nat := 0
  /-- what started the last attempt -/
  trigger : Trigger := .caller
  /-- the link whose writer is held -/
  writer : Option LinkId := none
  /-- the link whose reader task is held -/
  reader : Option LinkId := none
  /-- an attempt task is held -/
  attempting : Bool := false
  /-- payloads that wait for a link, the oldest first -/
  queue : List Payload := []
  /-- observers of inbound messages, in order of registration -/
  observers : List ObserverId := []
  /-- callers who wait for the connection, in order of arrival -/
  waiters : List Waiter := []
  /-- what is under way -/
  activity : Activity := .ready
  deriving DecidableEq, Repr

/-- How the closing of a writer ended. -/
inductive CloseOutcome
  /-- the writer is closed -/
  | done
  /-- the writer reported a failure -/
  | failed (error : Failure)
  /-- the time for closing a writer passed -/
  | timedOut
  deriving DecidableEq, Repr

/-- What can happen to a manager. -/
inductive Input
  /-- the next command of the queue -/
  | command (command : Command)
  /-- an attempt ended, with a new link or a failure -/
  | attemptFinished (generation : Nat) (result : Except Failure LinkId)
  /-- a link reported an event; the listed observers fail if it is a message -/
  | linkEvent (generation : Nat) (event : LinkEvent) (panicking : List ObserverId)
  /-- nobody can give commands any more, and none is left -/
  | commandsEnded
  /-- the write under way ended -/
  | written (result : Except Failure Unit)
  /-- the close under way ended -/
  | closed (outcome : CloseOutcome)
  deriving Repr

/-- What a manager does. -/
inductive Effect
  /-- a record is logged -/
  | log (record : LogRecord)
  /-- a phase is published -/
  | publish (phase : Phase)
  /-- an event is published -/
  | emit (event : LifecycleEvent)
  /-- a call is answered -/
  | answer (call : CallId) (result : Except Failure Unit)
  /-- the books are reported -/
  | report (query : QueryId) (snapshot : Snapshot)
  /-- an attempt task is started -/
  | startAttempt (generation : Nat)
  /-- the attempt task is given up -/
  | abandonAttempt
  /-- a reader task is started on a link -/
  | startReader (link : LinkId) (generation : Nat)
  /-- the reader task is given up -/
  | abandonReader
  /-- the writing of a payload begins -/
  | write (link : LinkId) (payload : Payload)
  /-- the closing of a writer begins -/
  | close (link : LinkId)
  /-- an observer is shown a message -/
  | observe (observer : ObserverId) (payload : Payload)
  deriving Repr

/-- The books after an input, and what was done. -/
abbrev Reaction := Manager × List Effect

namespace Reaction

/-- A reaction with something done before it. -/
def after (reaction : Reaction) (earlier : List Effect) : Reaction :=
  (reaction.1, earlier ++ reaction.2)

/-- A reaction followed by another, which starts from the books that the first one leaves. -/
def andThen (first : Reaction) (rest : Manager → Reaction) : Reaction :=
  (rest first.1).after first.2

@[simp]
theorem after_fst (reaction : Reaction) (earlier : List Effect) :
    (reaction.after earlier).1 = reaction.1 := rfl

@[simp]
theorem after_snd (reaction : Reaction) (earlier : List Effect) :
    (reaction.after earlier).2 = earlier ++ reaction.2 := rfl

@[simp]
theorem after_nil (reaction : Reaction) : reaction.after [] = reaction := rfl

end Reaction

namespace Manager

/-- The books as they are reported. -/
def snapshot (m : Manager) : Snapshot where
  phase := m.phase
  queued := m.queue.length
  observers := m.observers.length
  waiters := m.waiters.length
  generation := m.generation

/-- What is done when the phase changes; nothing if it stays. -/
def transition (source target : Phase) : List Effect :=
  if source = target then [] else [.log (.transition source target), .publish target]

/-- The same answer for every caller in a list. -/
def answerAll (waiters : List Waiter) (result : Except Failure Unit) : List Effect :=
  waiters.map (Effect.answer ·.call result)

@[simp]
theorem transition_self (phase : Phase) : transition phase phase = [] := by
  simp [transition]

@[simp]
theorem answerAll_nil (result : Except Failure Unit) : answerAll [] result = [] := rfl

end Manager

end PersistentLink
