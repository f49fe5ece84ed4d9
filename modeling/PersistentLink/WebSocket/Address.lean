import PersistentLink.Endpoint.Parse
import PersistentLink.Failure.Basic

/-!
# Dialling

Before a word of the WebSocket protocol is spoken, the address has to be understood and the
host has to be reached. The two are told apart here: an address says where to dial, and the
network says what comes of it.

## Main definitions

- `Address`: what a URL says about whom to dial and what to ask for
- `Address.ofUrl`: reads a URL
- `Address.checkScheme`: whether the host is to be spoken to as a WebSocket
- `Network`: what lies between the two sides
- `Network.dial`: what comes of dialling
- `Network.reach`: reads a URL and dials its host

## Design notes

A URL of any scheme can be dialled if it states a port. The scheme is looked at for the port
where none is stated, and otherwise only after the host was reached.
-/

namespace PersistentLink.WebSocket

/-- What a URL says about whom to dial and what to ask for. -/
structure Address where
  /-- the scheme, if the URL has one -/
  scheme : Option (List Char)
  /-- host and port as they are written, without the user information -/
  authority : List Char
  /-- the port to dial -/
  port : UInt16
  /-- path and query to ask for -/
  path : List Char
  deriving DecidableEq, Repr, Inhabited

namespace Address

/-- The part of an authority after its first at sign, or all of it. -/
def withoutUser (authority : List Char) : List Char :=
  if authority.contains '@' then (authority.dropWhile (· != '@')).drop 1 else authority

/-- The scheme of that name, if there is a name and it is one of a WebSocket. -/
def schemeOf? (name : Option (List Char)) : Option Scheme :=
  name.bind fun name => Scheme.ofName? (String.ofList name)

/-- The address of a URL already split. -/
def ofReference (uri : Uri.Reference) : Except WebSocketFailure Address :=
  if uri.authority.isEmpty then .error (.address .noHostName)
  else
    let stated := (Uri.portTextOf uri.authority).bind readPort
    match stated <|> (schemeOf? uri.scheme).map Scheme.defaultPort with
    | some port =>
      .ok { scheme := uri.scheme, authority := withoutUser uri.authority, port, path := uri.path }
    | none => .error (.address .unsupportedScheme)

/-- The address of a URL. -/
def ofUrl (url : String) : Except WebSocketFailure Address := do
  let uri ← (Uri.Reference.parse url.toList).mapError .uri
  ofReference uri

/-- Whether the host is to be spoken to as a WebSocket. -/
def checkScheme (address : Address) : Except WebSocketFailure Unit :=
  match schemeOf? address.scheme with
  | some _ => .ok ()
  | none => .error (.address .unsupportedScheme)

end Address

/-- What lies between the two sides. -/
inductive Network
  /-- every host can be reached -/
  | reachable
  /-- no host can be reached -/
  | unreachable
  deriving DecidableEq, Repr

/-- What comes of dialling a host, which may listen or not. -/
def Network.dial (network : Network) (listening : Bool) : Except WebSocketFailure Unit :=
  match network with
  | unreachable => .error (.io (.system OsError.networkUnreachable))
  | reachable =>
    if listening then .ok () else .error (.io (.system OsError.connectionRefused))

/-- Reads a URL and dials its host, which may listen or not. -/
def Network.reach (network : Network) (url : String) (listening : Bool) :
    Except WebSocketFailure Address := do
  let address ← Address.ofUrl url
  network.dial listening
  return address

/-- The failure to reach a host does not depend on who listens there. -/
@[simp]
theorem Network.dial_unreachable (listening : Bool) :
    Network.dial .unreachable listening =
      .error (.io (.system OsError.networkUnreachable)) := rfl

end PersistentLink.WebSocket
