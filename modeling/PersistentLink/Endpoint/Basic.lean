/-!
# Endpoints

The address of the remote side of a connection.

## Main definitions

- `Scheme`: plain or encrypted WebSocket, with its default port
- `Endpoint`: scheme, host, port, and path with query
- `Endpoint.ofParts`: the endpoint of given parts, with a rooted path
- `Endpoint.url`: the address as a transport takes it
-/

namespace PersistentLink

/-- The scheme of an endpoint's address. -/
inductive Scheme
  /-- plain WebSocket -/
  | ws
  /-- WebSocket over TLS -/
  | wss
  deriving DecidableEq, Repr, Inhabited

namespace Scheme

/-- The name of the scheme in an address. -/
def name : Scheme → String
  | ws => "ws"
  | wss => "wss"

/-- The scheme of that exact name; upper case is not recognised. -/
def ofName? : String → Option Scheme
  | "ws" => some ws
  | "wss" => some wss
  | _ => none

/-- The port of an address that states none. -/
def defaultPort : Scheme → UInt16
  | ws => 80
  | wss => 443

@[simp]
theorem ofName?_name (scheme : Scheme) : ofName? scheme.name = some scheme := by
  cases scheme <;> rfl

end Scheme

/-- The address of the remote side. -/
structure Endpoint where
  /-- how to speak to the host -/
  scheme : Scheme
  /-- name or address of the host; a numeric address of the longer kind is in brackets -/
  host : String
  /-- port of the host -/
  port : UInt16
  /-- path and query -/
  path : String
  deriving DecidableEq, Repr

namespace Endpoint

/-- A path that starts at the root: a slash is put in front where there is none. -/
def rooted (path : String) : String :=
  match path.toList with
  | '/' :: _ => path
  | _ => "/" ++ path

/-- The endpoint of the given parts. -/
def ofParts (scheme : Scheme) (host : String) (port : UInt16) (path : String) : Endpoint :=
  ⟨scheme, host, port, rooted path⟩

/-- The address: `scheme://host:port`, then the path. The port is always stated. -/
def url (endpoint : Endpoint) : String :=
  endpoint.scheme.name ++ "://" ++ endpoint.host ++ ":" ++ toString endpoint.port.toNat ++
    endpoint.path

/-- The endpoint of a manager that was given none: an echo service on the same machine. -/
def standard : Endpoint :=
  ofParts .ws "127.0.0.1" 8080 "/echo"

instance : Inhabited Endpoint := ⟨standard⟩

end Endpoint

end PersistentLink
