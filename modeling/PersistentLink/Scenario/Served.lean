import PersistentLink.Scenario.Play
import PersistentLink.Scenario.Server

/-!
# A manager and a server

The links of the manager are WebSockets to a scripted server. The steps of callers and of the
server are taken one after the other; a step that waits for something lets the world run.

## Main definitions

- `Served.Step`, `Served.Answer`: what is done, and what is said of it
- `Served`: the world, the network, and the server
- `Served.step`: takes a step
- `Served.play`: the answers of a whole scenario

## Design notes

A call for the connection is not answered as long as the server listens and waits for a
connection of its own to come of it, and none comes.
-/

namespace PersistentLink.Scenario

open WebSocket

namespace Served

/-- What is done. -/
inductive Step
  /-- a caller asks for the connection; the server may expect a connection to come of it -/
  | connect (expected : Option Greeting)
  /-- the server waits for a connection that the manager makes by itself -/
  | accept (greeting : Greeting)
  /-- the server does not listen any more -/
  | unlisten
  /-- a caller sends a payload -/
  | send (payload : Payload)
  /-- a caller asks for a reset -/
  | close
  /-- a subscriber waits for the next event -/
  | event
  /-- an observer waits for the next message -/
  | message
  /-- the books are asked for -/
  | snapshot
  /-- the published phase is asked for -/
  | phase
  /-- the server sends octets over its latest connection -/
  | serverSend (octets : Bytes)
  /-- the server waits for the next frame of its latest connection -/
  | serverRead
  /-- the server ends its side of its latest connection -/
  | serverHangup
  /-- the script is broken here, which is noticed if there is a connection, in case it is needed -/
  | unreadable (needsConnection : Bool) (complaint : String)
  deriving Repr

/-- What is said of a step. -/
inductive Answer
  | result (result : Except Failure Unit)
  /-- the request of a connection -/
  | request (lines : List String)
  | event (item : Received LifecycleEvent)
  | message (payload : Payload)
  | books (books : Books)
  | phase (phase : Phase)
  | frame (frame : Frame)
  /-- the client has ended the connection -/
  | endOfStream
  | done
  | happened
  /-- what was waited for does not come -/
  | nothing
  /-- there is no connection yet -/
  | skipped
  /-- the step cannot be read -/
  | unreadable (complaint : String)
  deriving Repr

/-- A connection of the server. -/
structure Connection where
  /-- the link, unless the opening handshake failed -/
  link : Option LinkId
  /-- frames that the server has read -/
  heard : Nat := 0
  deriving Repr

end Served

/-- A manager, a network and a server. -/
structure Served where
  world : World
  network : Network
  /-- the server listens -/
  listening : Bool := true
  /-- the latest connection of the server -/
  connection : Option Served.Connection := none

namespace Served

/-- How a call to the transport ends, as long as no server answers. -/
def dialling (network : Network) (url : String) (listening : Bool) : Reply :=
  match network.reach url listening with
  | .ok _ => .later
  | .error failure => .now (.failure (.webSocket failure))

/-- A manager with one observer and one subscriber, and a server that listens. -/
def start (network : Network) (settings : Settings) : Served where
  network
  world :=
    { World.start settings [] with
      otherwise := dialling network settings.endpoint.url true
      observers := #[{}] }.give (.addObserver 0)

/-- Lets the world run. -/
def settle (s : Served) : Served :=
  { s with world := s.world.settle.acknowledge }

/-! ## The server's side of a new connection -/

/-- The number of a call to the transport that waits for the server. -/
def waitingOpen (w : World) : Option Nat :=
  (w.ensemble.attempts.filterMap (·.number)).getLast?

/-- Carries out the opening handshake of a connection. -/
def meet (w : World) (number : Nat) (greeting : Greeting) : Option LinkId × World :=
  match greeting.meet with
  | none => (none, w)
  | some (.error failure) => (none, (w.endOpen number (.failure (.webSocket failure))).2)
  | some (.ok client) =>
    let completed : LogRecord :=
      .handshakeCompleted w.endpoint.url (Http.statusLine switchingProtocols)
    (some w.peers.size,
      ({ w with log := w.log.push completed }.endOpen number (.webSocket client)).2)

/-- The server takes a connection and answers its request, if one comes. -/
def take (s : Served) (greeting : Greeting) : Option (List String) × Served :=
  let s := s.settle
  match waitingOpen s.world, Address.ofUrl s.world.endpoint.url with
  | some number, .ok address =>
    let (link, world) := meet s.world number greeting
    (some (requestLines address challenge),
      { s with world, connection := some { link } }.settle)
  | _, _ => (none, s)

/-! ## The latest connection -/

/-- Whether the manager still holds a half of a link. -/
def isHeld (w : World) (link : LinkId) : Bool :=
  w.ensemble.readers.any (·.link == link) || w.ensemble.manager.writer == some link

/-- The server does something to the client's side of its latest connection. -/
def byServer (s : Served) (act : Client → Client) : Answer × Served :=
  match s.connection with
  | none => (.skipped, s)
  | some connection =>
    let s := s.settle
    match connection.link with
    | none => (.happened, s)
    | some link =>
      let peers := s.world.peers.modify link fun peer =>
        { peer with client := peer.client.map act }
      (.happened, { s with world := { s.world with peers }.stir link }.settle)

/-- The server waits for the next frame of its latest connection. -/
def serverRead (s : Served) : Answer × Served :=
  match s.connection with
  | none => (.skipped, s)
  | some connection =>
    let s := s.settle
    match connection.link with
    | none => (.endOfStream, s)
    | some link =>
      let sent := (((s.world.peers[link]?).bind (·.client)).map (·.sent)).getD []
      match sent[connection.heard]? with
      | some frame =>
        let connection := { connection with heard := connection.heard + 1 }
        (.frame frame, { s with connection := some connection })
      | none => (if isHeld s.world link then .nothing else .endOfStream, s)

/-! ## Steps -/

/-- The answer of a call, if there is one by now. -/
def answerOf (s : Served) (call : CallId) : Answer :=
  match (s.world.calls[call]?).bind (·.answer) with
  | some result => .result result
  | none => .nothing

/-- A caller asks for the connection. -/
def connect (s : Served) (expected : Option Greeting) : Answer × Served :=
  let call := s.world.calls.size
  let s := { s with world := s.world.issue .connect }
  match expected, s.listening with
  | some greeting, true =>
    match s.take greeting with
    | (some _, s) => (s.answerOf call, s)
    | (none, s) => (.nothing, s)
  | _, _ =>
    let s := s.settle
    (s.answerOf call, s)

/-- The first message shown to the observer that was not asked for yet, and the records left. -/
def nextMessage : List Trace → Option Payload × List Trace
  | [] => (none, [])
  | .observed _ payload :: rest => (some payload, rest)
  | _ :: rest => nextMessage rest

/-- Takes a step. -/
def step (s : Served) : Step → Answer × Served
  | .connect expected => s.connect expected
  | .accept greeting =>
    match s.take greeting with
    | (some lines, s) => (.request lines, s)
    | (none, s) => (.nothing, s)
  | .unlisten =>
    let otherwise := dialling s.network s.world.endpoint.url false
    (.done, { s with listening := false, world := { s.world with otherwise } })
  | .send payload => (.done, { s with world := s.world.give (.send payload) })
  | .close =>
    let call := s.world.calls.size
    let s := { s with world := s.world.issue .close }.settle
    (s.answerOf call, s)
  | .event =>
    let s := s.settle
    match s.world.subscribers[0]? with
    | none => (.nothing, s)
    | some subscription =>
      let (item, subscription) := s.world.events.receiveOne subscription s.world.isSilent
      let subscribers := s.world.subscribers.setIfInBounds 0 subscription
      (match item with
        | some item => .event item
        | none => .nothing, { s with world := { s.world with subscribers } })
  | .message =>
    let s := s.settle
    let (payload, trace) := nextMessage s.world.trace.toList
    (match payload with
      | some payload => .message payload
      | none => .nothing, { s with world := { s.world with trace := trace.toArray } })
  | .snapshot =>
    let (books, world) := s.world.askBooks
    (.books books, { s with world })
  | .phase => (.phase s.world.phase, s)
  | .serverSend octets => s.byServer (serverSends octets)
  | .serverRead => s.serverRead
  | .serverHangup => s.byServer serverEnds
  | .unreadable needsConnection complaint =>
    (if needsConnection && s.connection.isNone then .skipped else .unreadable complaint, s)

/-- Takes steps in order. -/
def steps (s : Served) : List Step → List Answer × Served
  | [] => ([], s)
  | step :: rest =>
    let (answer, s) := s.step step
    let (answers, s) := s.steps rest
    (answer :: answers, s)

/-- The answers of a whole scenario, and everything that was logged. -/
def play (network : Network) (settings : Settings) (steps : List Step) :
    List Answer × List LogRecord :=
  let (answers, s) := (start network settings).steps steps
  (answers, s.world.log.toList)

/-- What was noticed first of the steps that cannot be read. -/
def complaint? (answers : List Answer) : Option String :=
  answers.findSome? fun
    | .unreadable complaint => some complaint
    | _ => none

end Served

end PersistentLink.Scenario
