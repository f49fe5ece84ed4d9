import PersistentLink.WebSocket.Handshake

/-!
# A scripted server

The other end of a WebSocket in a scenario: a server that answers the opening handshake with
given octets, and then sends and reads as it is told.

## Main definitions

- `isolated`: the network of scenarios
- `Greeting`: the server's side of an opening handshake
- `Greeting.octets`: what the server sends in answer to a request
- `Greeting.meet`: the opening handshake with that server
- `serverSends`, `serverEnds`: what the server does to the client's side

## Design notes

A client draws the key of its request at random, so no answer may depend on it. One challenge
stands for all of them.
-/

namespace PersistentLink.Scenario

open WebSocket

/-- Scenarios are played in isolation: no host can be reached, not even the one they are played
on. -/
def isolated : Network := .unreachable

/-- The challenge of all scenarios. -/
def challenge : Challenge :=
  ⟨"KEY", "Qm9vbWVyYW5nU2FsdXRlQWxsIQA="⟩

/-- The server's side of an opening handshake. -/
structure Greeting where
  /-- the response, cut at each place where the proof of the challenge stands -/
  response : List String :=
    ["HTTP/1.1 101 Switching Protocols\r\nUpgrade: websocket\r\n" ++
      "Connection: Upgrade\r\nSec-WebSocket-Accept: ", "\r\n\r\n"]
  /-- octets sent together with the response -/
  tail : Bytes := []
  /-- the server ends its side after that -/
  hangup : Bool := false
  deriving Repr

namespace Greeting

/-- What the server sends in answer to a request. -/
def octets (greeting : Greeting) : Bytes :=
  Utf8.encode (challenge.proof.intercalate greeting.response) ++ greeting.tail

/-- The opening handshake with that server; nothing is said while the client waits for more. -/
def meet (greeting : Greeting) : Option (Except WebSocketFailure Client) :=
  openOver challenge greeting.octets greeting.hangup

end Greeting

/-- The server sends octets, unless it has ended its side. -/
def serverSends (octets : Bytes) (client : Client) : Client :=
  if client.ended then client else { client with received := client.received ++ octets }

/-- The server ends its side. -/
def serverEnds (client : Client) : Client :=
  { client with ended := true }

end PersistentLink.Scenario
