import PersistentLink.Scenario.Server

/-!
# A visit to a server

One client opens a WebSocket to a scripted server. Then both take steps, each of which is answered
at once or would have to be waited for.

## Main definitions

- `Visit.Step`, `Visit.Answer`: what either side does, and what is said of it
- `Visit.Opening`: what comes of opening the WebSocket
- `Visit.start`: opens the WebSocket
- `Visit.play`: a whole visit
-/

namespace PersistentLink.Scenario.Visit

open WebSocket

/-- What either side does. -/
inductive Step
  /-- the client sends a message -/
  | send (payload : Payload)
  /-- the client begins the closing -/
  | close
  /-- the client waits for the next event -/
  | next
  /-- the server sends octets -/
  | serverSend (octets : Bytes)
  /-- the server waits for the next frame -/
  | serverRead
  /-- the server ends its side -/
  | serverHangup
  deriving Repr

/-- What is said of a step. -/
inductive Answer
  | result (result : Except Failure Unit)
  | event (event : LinkEvent)
  | frame (frame : Frame)
  | happened
  /-- what was waited for does not come -/
  | nothing
  deriving Repr

/-- What comes of opening the WebSocket. -/
inductive Opening
  /-- it is open, after this request -/
  | opened (client : Client) (request : List String)
  /-- it failed, before or after this request -/
  | failed (error : Failure) (request : Option (List String))
  /-- one of the two sides waits for the other -/
  | waits
  deriving Repr

/-- Opens a WebSocket. Without a server nobody listens; a server that listens waits for its
connection. -/
def start (network : Network) (url : String) (server : Option Greeting) : Opening :=
  match network.reach url server.isSome, server with
  | .error failure, none => .failed (.webSocket failure) none
  | .error _, some _ => .waits
  | .ok _, none => .waits
  | .ok address, some greeting =>
    match address.checkScheme with
    | .error failure => .failed (.webSocket failure) none
    | .ok _ =>
      let request := requestLines address challenge
      match greeting.meet with
      | none => .waits
      | some (.error failure) => .failed (.webSocket failure) (some request)
      | some (.ok client) => .opened client request

/-- The two sides of an open WebSocket. -/
structure Talk where
  client : Client
  /-- frames that the server has read -/
  heard : Nat := 0

/-- Takes a step. -/
def Talk.step (talk : Talk) : Step → Answer × List LogRecord × Talk
  | .send payload =>
    let (result, client) := talk.client.send payload
    (.result result, [], { talk with client })
  | .close =>
    let (result, client) := talk.client.close
    (.result result, [], { talk with client })
  | .next =>
    let (event, log, client) := talk.client.next
    (match event with
      | some event => .event event
      | none => .nothing, log, { talk with client })
  | .serverSend octets => (.happened, [], { talk with client := serverSends octets talk.client })
  | .serverRead =>
    match talk.client.sent[talk.heard]? with
    | some frame => (.frame frame, [], { talk with heard := talk.heard + 1 })
    | none => (.nothing, [], talk)
  | .serverHangup => (.happened, [], { talk with client := serverEnds talk.client })

/-- Takes steps in order. -/
def Talk.steps (talk : Talk) : List Step → List Answer × List LogRecord
  | [] => ([], [])
  | step :: rest =>
    let (answer, log, talk) := talk.step step
    let (answers, later) := talk.steps rest
    (answer :: answers, log ++ later)

/-- What comes of a visit. -/
structure Outcome where
  opening : Opening
  answers : List Answer
  log : List LogRecord

/-- A whole visit. The steps are taken only if the WebSocket is open. -/
def play (network : Network) (url : String) (server : Option Greeting) (steps : List Step) :
    Outcome :=
  match start network url server with
  | .opened client request =>
    let (answers, log) := Talk.steps { client } steps
    { opening := .opened client request
      answers
      log := .handshakeCompleted url (Http.statusLine switchingProtocols) :: log }
  | opening => { opening, answers := [], log := [] }

end PersistentLink.Scenario.Visit
