import PersistentLink.WebSocket.Client

/-!
# The far side of a link

In a scenario the far side of a link is scripted: it is laid down how the calls to its writer end,
and what its reader yields. Or the link is a WebSocket, and both follow from what the client and
a server exchange.

## Main definitions

- `Mode`: how a call to a writer ends
- `Behaviour`: how the calls to one writer end
- `Peer`: the far side of one link
- `Peer.write`, `Peer.close`: how a call to the writer ends
- `Peer.yield`: what the reader yields next
-/

namespace PersistentLink.Scenario

/-- How a call to a writer ends. -/
inductive Mode
  /-- it succeeds at once -/
  | ok
  /-- it fails at once -/
  | fail
  /-- it ends when it is released -/
  | hang
  /-- it takes the task of its caller down -/
  | panic
  deriving DecidableEq, Repr, Inhabited

/-- How the calls to a writer end. -/
structure Behaviour where
  /-- the next writes -/
  writes : List Mode := []
  /-- all later writes -/
  later : Mode := .ok
  /-- the close -/
  close : Mode := .ok
  /-- what a failing call reports -/
  failure : Failure := .io (.bare .brokenPipe)
  deriving Repr, Inhabited

/-- A change of behaviour; what is not given stays. -/
structure Adjustment where
  writes : Option (List Mode) := none
  later : Option Mode := none
  close : Option Mode := none
  failure : Option Failure := none
  deriving Repr

/-- The behaviour after a change. -/
def Behaviour.adjust (behaviour : Behaviour) (change : Adjustment) : Behaviour where
  writes := change.writes.getD behaviour.writes
  later := change.later.getD behaviour.later
  close := change.close.getD behaviour.close
  failure := change.failure.getD behaviour.failure

/-- The far side of a link. -/
structure Peer where
  /-- number of the call to the transport that opened the link -/
  number : Nat
  /-- how the calls to its writer end -/
  behaviour : Behaviour
  /-- what the first read yields once nothing is held back; until then it cannot be interrupted -/
  held : Option LinkEvent := none
  /-- what was sent and not read yet, the oldest first -/
  sent : List LinkEvent := []
  /-- the peer has vanished -/
  vanished : Bool := false
  /-- a call hangs and waits to be released -/
  gate : Bool := false
  /-- the client of the WebSocket that the link is, if it is one -/
  client : Option WebSocket.Client := none
  deriving Repr

namespace Peer

/-- The peer after a call to the client, and how the call ends. -/
def afterCall (peer : Peer) (result : Except Failure Unit) (client : WebSocket.Client) :
    Mode × Peer :=
  match result with
  | .ok _ => (.ok, { peer with client := some client })
  | .error failure =>
    (.fail, { peer with client := some client, behaviour := { peer.behaviour with failure } })

/-- How a write ends. -/
def write (peer : Peer) (payload : Payload) : Mode × Peer :=
  match peer.client with
  | some client =>
    let (result, client) := client.send payload
    peer.afterCall result client
  | none =>
    match peer.behaviour.writes with
    | mode :: rest => (mode, { peer with behaviour := { peer.behaviour with writes := rest } })
    | [] => (peer.behaviour.later, peer)

/-- How the close ends. -/
def close (peer : Peer) : Mode × Peer :=
  match peer.client with
  | some client =>
    let (result, client) := client.close
    peer.afterCall result client
  | none => (peer.behaviour.close, peer)

/-- The close that a link reports after its peer has vanished. -/
def vanishedStatus : CloseStatus :=
  .abnormal "mock peer dropped"

/-- What the reader yields next, if there is something by now, and what is logged on the way. A
peer that has vanished yields its close after all that it has sent. -/
def yield (peer : Peer) : Option LinkEvent × List LogRecord × Peer :=
  match peer.client with
  | some client =>
    let (event, log, client) := client.next
    (event, log, { peer with client := some client })
  | none =>
    match peer.sent with
    | event :: rest => (some event, [], { peer with sent := rest })
    | [] => (if peer.vanished then some (.closed vanishedStatus) else none, [], peer)

/-- A bound on the events that the reader has to yield. -/
def backlog (peer : Peer) : Nat :=
  peer.sent.length + (peer.client.map (·.received.length)).getD 0

end Peer

end PersistentLink.Scenario
