import PersistentLink.Endpoint.Parse
import PersistentLink.Failure.WebSocket

/-!
# Failures of a connection

Every way in which an operation on a managed connection can fail, what it says, what it was
caused by, and how it looks to a caller that knows failures of input and output only.

## Main definitions

- `Failure`: the failures
- `Failure.message`: what a failure says
- `Failure.source?`: what the underlying failure says, where it is carried whole
- `Failure.toIo`: the failure as one of input and output
- `EndpointFault.toFailure`: the failure of reading an endpoint
-/

namespace PersistentLink

/-- A failure of a managed connection. -/
inductive Failure
  /-- a stream failed -/
  | io (failure : IoFailure)
  /-- the WebSocket transport failed -/
  | webSocket (failure : WebSocketFailure)
  /-- a text is no address of an endpoint -/
  | invalidEndpoint (detail : String)
  /-- an attempt failed; every caller that waited on it is told the same cause -/
  | connectFailed (cause : Failure)
  /-- the time limit of an attempt passed before the link opened -/
  | connectTimeout
  /-- the link was lost while queued messages were being written -/
  | connectionClosed
  /-- the manager was closed while the caller waited for a connection -/
  | aborted
  /-- the manager is gone -/
  | channelClosed
  deriving DecidableEq, Repr, Inhabited

namespace Failure

/-- What a failure says. -/
def message : Failure → String
  | io failure => "I/O error: " ++ failure.message
  | webSocket failure => "WebSocket error: " ++ failure.message
  | invalidEndpoint detail => "Invalid endpoint: " ++ detail
  | connectFailed cause => "Connection attempt failed: " ++ cause.message
  | connectTimeout => "Connection attempt timed out"
  | connectionClosed => "Connection closed"
  | aborted => "Connection attempt aborted by close"
  | channelClosed => "Internal channel is broken"

/-- What the failure underneath says. The cause of a failed attempt is shared between callers and
does not count as underlying. -/
def source? : Failure → Option String
  | io failure => some failure.message
  | webSocket failure => some failure.message
  | _ => none

/-- The failure as one of input and output. -/
def toIo : Failure → IoFailure
  | io failure => failure
  | webSocket failure => .described .other failure.message
  | invalidEndpoint detail => .described .invalidInput detail
  | connectFailed cause => .described .connectionRefused cause.message
  | connectTimeout => .bare .timedOut
  | connectionClosed => .bare .connectionReset
  | aborted => .bare .connectionAborted
  | channelClosed => .bare .brokenPipe

/-- A failure that began as one of input and output is not changed by going back to one. -/
@[simp]
theorem toIo_io (failure : IoFailure) : (io failure).toIo = failure := rfl

end Failure

/-- The failure of reading an endpoint from a text: it names the text and the fault. -/
def EndpointFault.toFailure (text : String) (fault : EndpointFault) : Failure :=
  .invalidEndpoint (text ++ ": " ++ fault.message)

/-- Reads an endpoint, or fails as a managed connection fails. -/
def Endpoint.read (text : String) : Except Failure Endpoint :=
  (Endpoint.parse text).mapError (·.toFailure text)

end PersistentLink
