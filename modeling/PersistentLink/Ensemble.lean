import PersistentLink.LinkReader
import PersistentLink.Manager.Step
import PersistentLink.Settings

/-!
# A manager and its tasks

A manager is one of several parties. Callers put commands into its queue. Attempts, each in a
task of its own, call the transport and report the result; readers pass on what links report.
Both post to a second queue, which the manager serves before the commands. Time passes, and sets
limits to attempts and to the closing of writers.

## Main definitions

- `Attempt`, `ReaderTask`: the tasks
- `Message`: what a task posts
- `Ensemble`: the manager, its queues and tasks, and the clock
- `Move`: what any party can do next
- `Ensemble.move`: a move, if it is possible
- `Ensemble.run`: a list of moves

## Design notes

A move is possible or not, and who chooses among the possible moves is left open. What callers,
transport, links and observers do is part of the move, so a run is a list of moves.

A call to the transport may be over before its attempt gets to see that. From then on it is settled
how the attempt ends, though it has yet to report it: a limit that is reached meanwhile comes late.

A task given up by the manager ends at once, unless it is in the middle of a call that cannot be
interrupted: such a task is *pinned*. A pinned attempt still reports, and a pinned reader still
passes one event on.
-/

namespace PersistentLink

instance decidableEqExcept {ε α : Type} [DecidableEq ε] [DecidableEq α] :
    DecidableEq (Except ε α)
  | .ok value, .ok other =>
    if h : value = other then .isTrue (h ▸ rfl) else .isFalse fun same => h (Except.ok.inj same)
  | .error error, .error other =>
    if h : error = other then .isTrue (h ▸ rfl) else .isFalse fun same => h (Except.error.inj same)
  | .ok _, .error _ | .error _, .ok _ => .isFalse nofun

/-- So many milliseconds may the closing of a writer take. -/
def closeGrace : Nat := 1000

/-- Times are told apart up to this many milliseconds after the start. A limit that lies beyond is
reached then. -/
def timeHorizon : Nat := UInt64.size - 3

/-- A task that opens a link. -/
structure Attempt where
  /-- generation of the attempt -/
  generation : Nat
  /-- number of the call to the transport, once it is made -/
  number : Option Nat := none
  /-- time at which the attempt is given up -/
  deadline : Option Nat := none
  /-- the call cannot be interrupted -/
  pinned : Bool := false
  /-- what the call has come to, once it is over; the attempt has yet to report that -/
  outcome : Option (Except Failure LinkId) := none
  deriving DecidableEq, Repr

/-- Whether an attempt waits for the answer to a call. -/
def Attempt.awaits (attempt : Attempt) (number : Nat) : Bool :=
  attempt.number == some number && attempt.outcome.isNone

/-- An attempt whose call is over. -/
def Attempt.complete (attempt : Attempt) (number : Nat) (result : Except Failure LinkId) :
    Attempt :=
  if attempt.awaits number then { attempt with outcome := some result } else attempt

/-- A task that reads a link. -/
structure ReaderTask where
  /-- the link that is read -/
  link : LinkId
  /-- generation of the attempt that opened the link -/
  generation : Nat
  /-- the read under way cannot be interrupted -/
  pinned : Bool := false
  /-- the manager has given the task up -/
  abandoned : Bool := false
  deriving DecidableEq, Repr

/-- What a task posts to the manager. -/
inductive Message
  /-- an attempt ended -/
  | attemptFinished (generation : Nat) (result : Except Failure LinkId)
  /-- a link reported an event -/
  | linkEvent (generation : Nat) (event : LinkEvent)
  deriving Repr

/-- The input that a message is to the manager, when the listed observers fail on it. -/
def Message.toInput (panicking : List ObserverId) : Message → Input
  | attemptFinished generation result => .attemptFinished generation result
  | linkEvent generation event => .linkEvent generation event panicking

/-- A manager, its queues and tasks, and the clock. -/
structure Ensemble where
  /-- the books of the manager -/
  manager : Manager
  /-- time limit of an attempt, in milliseconds -/
  limit : Option Nat
  /-- the manager's task exists -/
  present : Bool := true
  /-- somebody can give commands -/
  attached : Bool := true
  /-- commands not handled yet, the oldest first -/
  commands : List Command := []
  /-- messages of tasks not handled yet, the oldest first -/
  inbox : List Message := []
  /-- attempts in flight, the oldest first -/
  attempts : List Attempt := []
  /-- readers of links, the oldest first -/
  readers : List ReaderTask := []
  /-- calls made to the transport so far -/
  opens : Nat := 0
  /-- milliseconds passed so far -/
  clock : Nat := 0
  /-- time at which the close under way is given up -/
  closeDeadline : Option Nat := none
  deriving Repr

/-- What can happen next. -/
inductive Move
  /-- a caller gives a command -/
  | submit (command : Command)
  /-- the last of those who can give commands goes away -/
  | detach
  /-- time passes -/
  | elapse (span : Nat)
  /-- the manager handles the next message or command; the listed observers fail if shown a
  message -/
  | handle (panicking : List ObserverId)
  /-- the write under way ends -/
  | written (result : Except Failure Unit)
  /-- the close under way ends -/
  | closed (result : Except Failure Unit)
  /-- the close under way has taken too long -/
  | closeExpired
  /-- the manager's task fails within a call to a writer -/
  | collapse
  /-- an attempt calls the transport; a pinned call cannot be interrupted -/
  | callOpen (pinned : Bool)
  /-- the transport answers a call, and the attempt reports the answer at once -/
  | answerOpen (number : Nat) (result : Except Failure LinkId)
  /-- the transport answers a call, which the attempt has yet to see -/
  | completeOpen (number : Nat) (result : Except Failure LinkId)
  /-- an attempt sees that its call is over, and reports the answer -/
  | reportOpen (number : Nat) (result : Except Failure LinkId)
  /-- an attempt fails within its call to the transport -/
  | collapseOpen (number : Nat)
  /-- an attempt has taken too long -/
  | expireOpen (number : Nat)
  /-- a reader begins a read that cannot be interrupted -/
  | pinReader (link : LinkId)
  /-- a link reports an event to its reader, who passes it on -/
  | read (link : LinkId) (event : LinkEvent)
  deriving Repr

namespace Ensemble

/-- The parties at the start: an idle manager, and somebody who can give commands. -/
def ofSettings (settings : Settings) : Ensemble where
  manager := { url := settings.endpoint.url }
  limit := settings.tuning.connectLimit

/-! ## Consequences of what the manager does -/

/-- What an effect means for tasks and limits. -/
def absorb (e : Ensemble) : Effect → Ensemble
  | .startAttempt generation => { e with attempts := e.attempts ++ [{ generation }] }
  | .abandonAttempt => { e with attempts := e.attempts.filter (·.pinned) }
  | .startReader link generation => { e with readers := e.readers ++ [{ link, generation }] }
  | .abandonReader =>
    { e with
      readers := (e.readers.filter (·.pinned)).map fun task => { task with abandoned := true } }
  | .close _ => { e with closeDeadline := some (e.clock + closeGrace) }
  | _ => e

/-- Lets the manager handle an input. -/
def feed (e : Ensemble) (input : Input) : Ensemble × List Effect :=
  let (manager, effects) := e.manager.step input
  let e := effects.foldl absorb { e with manager }
  ({ e with present := e.present && manager.activity != .ended }, effects)

/-- Puts a message into the manager's queue, or does what a task does when the manager is gone. -/
def post (e : Ensemble) (message : Message) (orphaned : List Effect) : Ensemble × List Effect :=
  if e.present then ({ e with inbox := e.inbox ++ [message] }, []) else (e, orphaned)

/-- What a caller is told by a manager that is gone. -/
def refuse : Command → List Effect
  | .connect call | .close call => [.answer call (.error .channelClosed)]
  | .send _ => [.log .messageDropped]
  | .addObserver _ => [.log .observerDropped]
  | .snapshot _ => []

/-! ## Moves -/

/-- The input that the manager handles next: messages go before commands, and the end of all
commands comes last. -/
def nextInput (e : Ensemble) (panicking : List ObserverId) : Option (Input × Ensemble) :=
  match e.inbox, e.commands with
  | message :: rest, _ => some (message.toInput panicking, { e with inbox := rest })
  | [], command :: rest => some (.command command, { e with commands := rest })
  | [], [] => if e.attached then none else some (.commandsEnded, e)

/-- Whether the manager waits for a write. -/
def isWriting (e : Ensemble) : Bool :=
  match e.manager.activity with
  | .writing _ | .draining .. => e.present
  | _ => false

/-- Whether the manager waits for a close. -/
def isClosing (e : Ensemble) : Bool :=
  match e.manager.activity with
  | .closing .. => e.present
  | _ => false

/-- Whether the manager waits for a call to a writer. -/
def isBlocked (e : Ensemble) : Bool :=
  e.isWriting || e.isClosing

/-- Whether a limit has been reached. -/
def reached (e : Ensemble) (deadline : Option Nat) : Bool :=
  deadline.any (min · timeHorizon ≤ e.clock)

/-- Ends the close under way. -/
def endClose (e : Ensemble) (outcome : CloseOutcome) : Ensemble × List Effect :=
  { e with closeDeadline := none }.feed (.closed outcome)

/-- Takes the attempt that made a call to the transport out of those in flight. -/
def takeAttempt (e : Ensemble) (number : Nat) : Option (Attempt × Ensemble) := do
  let attempt ← e.attempts.find? (·.number == some number)
  return (attempt, { e with attempts := e.attempts.filter (·.number != some number) })

/-- Ends an attempt, which reports its result. -/
def endAttempt (e : Ensemble) (attempt : Attempt) (result : Except Failure LinkId) :
    Ensemble × List Effect :=
  e.post (.attemptFinished attempt.generation result) [.log (.attemptOrphaned attempt.generation)]

/-- Lets the oldest of the attempts that have not called the transport yet do so. -/
def callFirst (number : Nat) (deadline : Option Nat) (pinned : Bool) :
    List Attempt → Option (List Attempt)
  | [] => none
  | attempt :: rest =>
    if attempt.number.isNone then
      some ({ attempt with number := some number, deadline, pinned } :: rest)
    else (callFirst number deadline pinned rest).map (attempt :: ·)

/-- Passes an event of a link on. The reader goes on unless it is done or was given up. -/
def passOn (e : Ensemble) (task : ReaderTask) (event : LinkEvent) : Ensemble × List Effect :=
  let pass := LinkReader.pass task.generation event e.present
  let keep := !pass.finished && !task.abandoned
  let readers := e.readers.filterMap fun other =>
    if other.link == task.link then (if keep then some { other with pinned := false } else none)
    else some other
  let inbox := if pass.delivered then e.inbox ++ [.linkEvent task.generation event] else e.inbox
  ({ e with readers, inbox }, pass.log.map .log)

/-- Makes a move, if it is possible. -/
def move (e : Ensemble) : Move → Option (Ensemble × List Effect)
  | .submit command =>
    if !e.present then some (e, refuse command)
    else if e.attached then some ({ e with commands := e.commands ++ [command] }, [])
    else none
  | .detach => if e.attached then some ({ e with attached := false }, []) else none
  | .elapse span => some ({ e with clock := e.clock + span }, [])
  | .handle panicking =>
    if e.present && e.manager.activity == .ready then
      (e.nextInput panicking).map fun (input, e) => e.feed input
    else none
  | .written result => if e.isWriting then some (e.feed (.written result)) else none
  | .closed result =>
    if e.isClosing then
      some (e.endClose (match result with
        | .ok _ => .done
        | .error error => .failed error))
    else none
  | .closeExpired =>
    if e.isClosing && e.reached e.closeDeadline then some (e.endClose .timedOut) else none
  | .collapse => if e.isBlocked then some ({ e with present := false }, []) else none
  | .callOpen pinned =>
    (callFirst e.opens (e.limit.map (e.clock + ·)) pinned e.attempts).map fun attempts =>
      ({ e with attempts, opens := e.opens + 1 }, [])
  | .answerOpen number result => do
    let (attempt, rest) ← e.takeAttempt number
    if attempt.outcome.isNone then rest.endAttempt attempt result else none
  | .completeOpen number result =>
    if e.attempts.any (·.awaits number) then
      some ({ e with attempts := e.attempts.map (·.complete number result) }, [])
    else none
  | .reportOpen number result => do
    let (attempt, rest) ← e.takeAttempt number
    if attempt.outcome = some result then rest.endAttempt attempt result else none
  | .collapseOpen number => do
    let (attempt, rest) ← e.takeAttempt number
    if attempt.outcome.isNone then some (rest, []) else none
  | .expireOpen number => do
    let (attempt, rest) ← e.takeAttempt number
    if attempt.outcome.isNone && e.reached attempt.deadline then
      rest.endAttempt attempt (.error .connectTimeout)
    else none
  | .pinReader link =>
    if e.readers.any (·.link == link) then
      some ({ e with
        readers := e.readers.map fun task =>
          if task.link == link then { task with pinned := true } else task }, [])
    else none
  | .read link event =>
    (e.readers.find? (·.link == link)).map fun task => e.passOn task event

/-- Makes moves in order, as long as each is possible. -/
def run (e : Ensemble) : List Move → Option (Ensemble × List Effect)
  | [] => some (e, [])
  | move :: rest => do
    let (e, first) ← e.move move
    let (e, later) ← e.run rest
    return (e, first ++ later)

end Ensemble

end PersistentLink
