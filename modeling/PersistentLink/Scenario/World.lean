import PersistentLink.Broadcast
import PersistentLink.Scenario.Peer
import PersistentLink.Scenario.Roster
import PersistentLink.Settings

/-!
# A manager in a scripted world

A scenario puts a manager between callers and a transport that both follow a script. The world
holds the parties and everything that the script can ask about: what was called, written,
observed, answered, published and logged.

## Main definitions

- `Observer`: an observer with a scripted reaction
- `Call`: a call that is answered later
- `World`: the parties and the records
- `World.perform`: makes a move and records what comes of it
- `World.give`: gives a command
- `World.alert`: lets the manager join the line if there is something for it
-/

namespace PersistentLink.Scenario

/-- What an observer does with a message that it reacts to. -/
inductive Reflex
  /-- nothing -/
  | rest
  /-- it fails -/
  | panic
  /-- it sends the message back -/
  | echo
  /-- it registers a further observer -/
  | register
  deriving DecidableEq, Repr

/-- An observer of inbound messages. -/
structure Observer where
  /-- what it does -/
  reflex : Reflex := .rest
  /-- the text that it reacts to; without one it reacts to every message -/
  trigger : Option String := none
  deriving Repr

/-- Whether an observer reacts to a message. -/
def Observer.reactsTo (observer : Observer) (payload : Payload) : Bool :=
  observer.trigger.all (payload.text? == some ·)

/-- Whether an observer keeps a handle of its own. -/
def Observer.holdsHandle (observer : Observer) : Bool :=
  observer.reflex == .echo || observer.reflex == .register

/-- The message that an echo sends back: a text is marked, octets stay as they are. -/
def echoOf : Payload → Payload
  | .text content => .text ("echo:" ++ content)
  | .binary content => .binary content

/-- The kinds of call that are answered later. -/
inductive CallKind
  | connect
  | close
  deriving DecidableEq, Repr

/-- A call that is answered later. -/
structure Call where
  kind : CallKind
  /-- the answer, once there is one -/
  answer : Option (Except Failure Unit) := none
  /-- the caller has gone away -/
  cancelled : Bool := false
  /-- the caller has seen the answer -/
  seen : Bool := false
  /-- the answer was reported -/
  reported : Bool := false
  deriving Repr

/-- Whether a call still waits for its answer. -/
def Call.isOutstanding (call : Call) : Bool :=
  call.answer.isNone && !call.cancelled

/-- Whether the caller waits, which keeps a handle: the caller does so until it has seen the answer
or has gone away. -/
def Call.isWaiting (call : Call) : Bool :=
  !call.cancelled && !call.seen

/-- The caller looks for the answer. -/
def Call.look (call : Call) : Call :=
  { call with seen := call.seen || call.answer.isSome }

/-- Whether there is an answer to report. -/
def Call.isNews (call : Call) : Bool :=
  call.answer.isSome && !call.cancelled && !call.reported

/-- How a call to the transport ends. -/
inductive Ending
  /-- with a link of the given behaviour, whose reader may yield an event that is held back -/
  | link (behaviour : Behaviour) (held : Option LinkEvent)
  /-- with a WebSocket -/
  | webSocket (client : WebSocket.Client)
  /-- with a failure -/
  | failure (error : Failure)
  deriving Repr

/-- What the script says about a call to the transport. -/
inductive Reply
  /-- a step of the scenario answers it -/
  | later
  /-- it ends at once -/
  | now (ending : Ending)
  /-- it cannot be interrupted, and ends once nothing is held back -/
  | held (ending : Ending)
  /-- it takes its task down -/
  | panic
  deriving Repr

/-- What was called, written, closed or observed. -/
inductive Trace
  | opened (number : Nat) (url : String)
  | wrote (link : LinkId) (payload : Payload) (mode : Mode)
  | closed (link : LinkId) (mode : Mode)
  | observed (observer : ObserverId) (payload : Payload)
  deriving Repr

/-- What is known of how the call to a writer under way ends. -/
inductive Verdict
  /-- it returns -/
  | returns (result : Except Failure Unit)
  /-- it was hanging and has been released; how it fails is seen only when the manager goes on -/
  | released (link : LinkId) (ok : Bool)
  /-- it takes the manager down -/
  | collapses
  deriving Repr

/-- A manager in a scripted world. -/
structure World where
  /-- the parties -/
  ensemble : Ensemble
  /-- whose turn it is; at the start it is the manager's -/
  roster : Roster := { line := [.manager] }
  /-- the endpoint of the manager -/
  endpoint : Endpoint
  /-- for each handle, whether it is held -/
  handles : List Bool := [true]
  /-- the calls so far -/
  calls : Array Call := #[]
  /-- the observers so far -/
  observers : Array Observer := #[]
  /-- the far sides of the links so far -/
  peers : Array Peer := #[]
  /-- for each call to the transport, whether a step has answered it -/
  answered : Array Bool := #[]
  /-- replies to the next calls to the transport -/
  script : List Reply := []
  /-- the reply to all later calls to the transport -/
  otherwise : Reply := .later
  /-- what the script holds back is held back -/
  holding : Bool := true
  /-- the calls to the transport that are held back -/
  heldOpens : List (Nat × Ending) := []
  /-- how the call to a writer under way ends, if that is known -/
  verdict : Option Verdict := none
  /-- the link whose call to a writer hangs -/
  hanging : Option LinkId := none
  /-- the published events -/
  events : Broadcast LifecycleEvent
  /-- the subscribers so far -/
  subscribers : Array Subscription := #[]
  /-- the published phase -/
  phase : Phase := .idle
  /-- a phase was published since the last report -/
  changed : Bool := false
  /-- requests for the books so far -/
  queries : Nat := 0
  /-- the books last reported, and for which request -/
  books : Option (QueryId × Snapshot) := none
  /-- what was called, written, closed or observed since the last report -/
  trace : Array Trace := #[]
  /-- what was logged since the last report -/
  log : Array LogRecord := #[]

namespace World

/-- The world at the start: one handle and one subscriber, before anything was handled. -/
def start (settings : Settings) (script : List Reply) : World where
  ensemble := .ofSettings settings
  endpoint := settings.endpoint
  script := script
  events := .ofCapacity settings.tuning.eventCapacity
  subscribers := #[⟨0⟩]
  log := #[.created settings.endpoint.url]

/-! ## Turns -/

/-- A party has a reason to go on. -/
def join (w : World) (party : Party) : World :=
  { w with roster := w.roster.join party }

/-- Lets the manager join the line if there is something that it listens to. It listens to each
queue again only after it has found it empty. -/
def alert (w : World) : World :=
  let posted := w.roster.heedsInbox && !w.ensemble.inbox.isEmpty
  let given := w.roster.heedsCommands && (!w.ensemble.commands.isEmpty || !w.ensemble.attached)
  if posted || given then
    { w with
      roster := { w.roster with
        heedsInbox := w.roster.heedsInbox && !posted
        heedsCommands := w.roster.heedsCommands && !given } }.join .manager
  else w

/-! ## Recording -/

/-- The call to a writer ends as the behaviour of its peer lays down. -/
def rule (w : World) (link : LinkId) (mode : Mode) (failure : Failure) : World :=
  match mode with
  | .ok => { w with verdict := some (.returns (.ok ())), hanging := none }
  | .fail => { w with verdict := some (.returns (.error failure)), hanging := none }
  | .panic => { w with verdict := some .collapses, hanging := none }
  | .hang =>
    { w with
      verdict := none
      hanging := some link
      peers := w.peers.modify link fun peer => { peer with gate := true } }

/-- Answers a call, unless its caller has gone away. -/
def answer (w : World) (call : CallId) (result : Except Failure Unit) : World :=
  { w with
    calls := w.calls.modify call fun c =>
      if c.isOutstanding then { c with answer := some result } else c }

/-- Records an effect. -/
def record (w : World) : Effect → World
  | .log entry => { w with log := w.log.push entry }
  | .publish phase => { w with phase, changed := true }
  | .emit event => { w with events := w.events.send event }
  | .answer call result => w.answer call result
  | .report query snapshot => { w with books := some (query, snapshot) }
  | .write link payload =>
    match w.peers[link]? with
    | some peer =>
      let (mode, peer) := peer.write payload
      { w with
        peers := w.peers.setIfInBounds link peer
        trace := w.trace.push (.wrote link payload mode) }.rule link mode peer.behaviour.failure
    | none => w
  | .close link =>
    match w.peers[link]? with
    | some peer =>
      let (mode, peer) := peer.close
      { w with
        peers := w.peers.setIfInBounds link peer
        trace := w.trace.push (.closed link mode) }.rule link mode peer.behaviour.failure
    | none => w
  | .observe observer payload => { w with trace := w.trace.push (.observed observer payload) }
  | .startAttempt generation => w.join (.attempt generation)
  | .startReader link _ => w.join (.reader link)
  | .abandonAttempt | .abandonReader => w

/-- The commands that come of showing a message to an observer. A further observer takes the next
free number. -/
def reflexOf (w : World) (observer : ObserverId) (payload : Payload) : World × Option Command :=
  match w.observers[observer]? with
  | none => (w, none)
  | some o =>
    if o.reactsTo payload then
      match o.reflex with
      | .rest | .panic => (w, none)
      | .echo => (w, some (.send (echoOf payload)))
      | .register =>
        ({ w with observers := w.observers.push {} }, some (.addObserver w.observers.size))
    else (w, none)

/-- Puts a command into the manager's queue, or records what comes of it if the manager is gone. -/
def give (w : World) (command : Command) : World :=
  match w.ensemble.move (.submit command) with
  | some (ensemble, effects) => (effects.foldl record { w with ensemble }).alert
  | none => w

/-- Records an effect and carries out the reflex of an observer. -/
def follow (w : World) (effect : Effect) : World :=
  let w := w.record effect
  match effect with
  | .observe observer payload =>
    match w.reflexOf observer payload with
    | (w, some command) => w.give command
    | (w, none) => w
  | _ => w

/-- When the manager is gone, the outstanding calls find that out. -/
def hangUp (w : World) : World :=
  if w.ensemble.present then w
  else
    { w with
      calls := w.calls.map fun call =>
        if call.isOutstanding then { call with answer := some (.error .channelClosed) } else call }

/-- Makes a move and records what comes of it; nothing is said if the move is not possible. -/
def perform (w : World) (move : Move) : Option World :=
  (w.ensemble.move move).map fun (ensemble, effects) =>
    (effects.foldl follow { w with ensemble }).hangUp.alert

/-- Makes a move if it is possible. -/
def tryMove (w : World) (move : Move) : World :=
  (w.perform move).getD w

/-! ## Questions -/

/-- The observers that fail when they are shown the next message. -/
def panicking (w : World) : List ObserverId :=
  match w.ensemble.inbox with
  | .linkEvent _ (.message payload) :: _ =>
    (w.observers.toList.zipIdx.filter fun (observer, _) =>
      observer.reflex == .panic && observer.reactsTo payload).map (·.2)
  | _ => []

/-- Whether a caller holds a handle, be it that of a call. -/
def callerHoldsHandle (w : World) : Bool :=
  w.handles.any id || w.calls.any (·.isWaiting)

/-- Whether a handle is held, be it by a caller or an observer. -/
def holdsHandle (w : World) : Bool :=
  w.callerHoldsHandle || w.observers.any (·.holdsHandle)

/-- Tells the manager when no handle is held any more. -/
def detachIfUnheld (w : World) : World :=
  if w.holdsHandle then w else w.tryMove .detach

/-- The callers see the answers that they have got, and the answers count as reported. -/
def acknowledge (w : World) : World :=
  let calls := w.calls.map fun call => { call.look with reported := call.answer.isSome }
  { w with calls }.detachIfUnheld

/-- Whether nobody can publish an event any more. The observers, and the handles that they hold,
have gone with the manager. -/
def isSilent (w : World) : Bool :=
  !w.ensemble.present && !w.callerHoldsHandle

end World

end PersistentLink.Scenario
