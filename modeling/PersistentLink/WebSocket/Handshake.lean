import PersistentLink.WebSocket.Address
import PersistentLink.WebSocket.Client
import PersistentLink.WebSocket.Response

/-!
# The opening handshake

The client asks for an upgrade and challenges the server with a key. The server proves that it
has understood by deriving a proof from the key. Which key is drawn and how the proof is derived
do not matter here: a challenge is given with its proof.

## Main definitions

- `Challenge`: a key and its proof
- `requestLines`: the client's request
- `checkResponse`: the rules for the server's response, in order
- `openOver`: the opening handshake over what the server has sent
-/

namespace PersistentLink.WebSocket

/-- A key, and the proof that is derived from it. -/
structure Challenge where
  key : String
  proof : String
  deriving DecidableEq, Repr

/-- The lines of the client's request. -/
def requestLines (address : Address) (challenge : Challenge) : List String :=
  ["GET " ++ String.ofList address.path ++ " HTTP/1.1",
   "Host: " ++ String.ofList address.authority,
   "Connection: Upgrade",
   "Upgrade: websocket",
   "Sec-WebSocket-Version: 13",
   "Sec-WebSocket-Key: " ++ challenge.key]

/-- The status that grants an upgrade. -/
def switchingProtocols : Nat := 101

/-- Whether the first header of a name has a given value, in either case. -/
def declares (response : Response) (name value : String) : Bool :=
  (response.header? name).any (Response.spells · value)

/-- The first rule that a response breaks. -/
def checkResponse (challenge : Challenge) (response : Response) : Except WebSocketFailure Unit :=
  if response.minorVersion < 1 then .error (.protocol .httpVersion)
  else if response.status < 100 then .error .statusOutOfRange
  else if response.status ≠ switchingProtocols then .error (.http response.status)
  else if !declares response "Upgrade" "websocket" then .error (.protocol .missingUpgrade)
  else if !declares response "Connection" "upgrade" then .error (.protocol .missingConnection)
  else if response.header? "Sec-WebSocket-Accept" ≠ some (Utf8.encode challenge.proof) then
    .error (.protocol .keyMismatch)
  else if (response.header? "Sec-WebSocket-Protocol").isSome then
    .error (.protocol .unrequestedSubprotocol)
  else .ok ()

/-- The opening handshake over what the server has sent, and may still send unless it has ended
its side. Nothing is said while the response is not complete. What follows the response is for
the open connection. -/
def openOver (challenge : Challenge) (received : Bytes) (ended : Bool) :
    Option (Except WebSocketFailure Client) :=
  match Response.read received with
  | .error .more => if ended then some (.error (.protocol .handshakeIncomplete)) else none
  | .error (.failure cause) => some (.error cause)
  | .ok (response, rest) =>
    some ((checkResponse challenge response).map fun _ => { received := rest, ended })

end PersistentLink.WebSocket
