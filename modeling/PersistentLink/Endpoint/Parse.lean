import PersistentLink.Endpoint.Basic
import PersistentLink.Uri.Reference

/-!
# Reading an endpoint

An endpoint is read from an absolute URI of scheme `ws` or `wss`. User information and
fragment are left out of it. A port that is missing or out of range is replaced by the one of
the scheme.

## Main definitions

- `EndpointFault`: why a text is no endpoint
- `readPort`: the number of a port
- `Endpoint.ofReference`: the endpoint of a URI already split
- `Endpoint.parse`: the endpoint of a text
-/

namespace PersistentLink

/-- Why a text names no endpoint. -/
inductive EndpointFault
  /-- the text is no URI -/
  | uri (fault : Uri.Fault)
  /-- the URI has a scheme, but not one of a WebSocket -/
  | unsupportedScheme (scheme : String)
  /-- the URI has no scheme -/
  | missingScheme
  /-- the host is empty -/
  | missingHost
  deriving DecidableEq, Repr

/-- The wording of a fault. -/
def EndpointFault.message : EndpointFault → String
  | uri fault => fault.message
  | unsupportedScheme scheme => "unsupported scheme `" ++ scheme ++ "`"
  | missingScheme => "missing scheme"
  | missingHost => "missing host"

/-- The value of a decimal digit. -/
def digitValue? (c : Char) : Option Nat :=
  if Uri.between 0x30 0x39 c then some (c.toNat - 0x30) else none

/-- The number written by decimal digits, of which there is at least one. -/
def readDecimal : List Char → Option Nat
  | [] => none
  | digits => digits.foldlM (fun number c => (digitValue? c).map (number * 10 + ·)) 0

/-- The number of a port: decimal, at most 65535, with leading zeros and a leading plus sign
admitted. -/
def readPort (text : List Char) : Option UInt16 := do
  let digits := match text with
    | '+' :: rest => rest
    | _ => text
  let number ← readDecimal digits
  if number < UInt16.size then some (UInt16.ofNat number) else none

namespace Endpoint

/-- The endpoint that a URI names. -/
def ofReference (uri : Uri.Reference) : Except EndpointFault Endpoint := do
  let some name := uri.scheme | .error .missingScheme
  let name := String.ofList name
  let some scheme := Scheme.ofName? name | .error (.unsupportedScheme name)
  let host := Uri.hostOf uri.authority
  if host.isEmpty then .error .missingHost
  let port := ((Uri.portTextOf uri.authority).bind readPort).getD scheme.defaultPort
  .ok (ofParts scheme (String.ofList host) port (String.ofList uri.path))

/-- Reads an endpoint. -/
def parse (text : String) : Except EndpointFault Endpoint := do
  let uri ← (Uri.Reference.parse text.toList).mapError .uri
  ofReference uri

end Endpoint

end PersistentLink
