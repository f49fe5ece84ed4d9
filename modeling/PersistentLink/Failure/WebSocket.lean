import PersistentLink.Failure.Io
import PersistentLink.Http.Status
import PersistentLink.Uri.Fault

/-!
# Failures of a WebSocket

What can go wrong between two sides that speak the WebSocket protocol, from reading the address
over the opening handshake to the last frame.

## Main definitions

- `ProtocolFault`: one side broke a rule of the protocol
- `AddressFault`: the address cannot be dialled
- `WebSocketFailure`: all failures, with `WebSocketFailure.message`
-/

namespace PersistentLink

/-- What was wrong with the head of an HTTP response. -/
inductive ResponseFault
  /-- the version is not written as one -/
  | version
  /-- the status is not written as one -/
  | status
  /-- the name of a header holds a character that no name has -/
  | headerName
  /-- the value of a header holds a character that no value has -/
  | headerValue
  /-- a line is ended in no admitted way -/
  | newLine
  deriving DecidableEq, Repr

/-- The wording of a fault of a response. -/
def ResponseFault.message : ResponseFault → String
  | version => "invalid HTTP version"
  | status => "invalid response status"
  | headerName => "invalid header name"
  | headerValue => "invalid header value"
  | newLine => "invalid new line"

/-- The kind of message that a run of fragments makes up. -/
inductive FragmentKind
  | text
  | binary
  deriving DecidableEq, Repr

/-- The name of the kind in a failure's wording. -/
def FragmentKind.name : FragmentKind → String
  | text => "TEXT"
  | binary => "BINARY"

/-- A rule of the protocol that was broken. -/
inductive ProtocolFault
  /-- something was to be sent after the closing had begun -/
  | sendAfterClosing
  /-- something was received after the closing was over -/
  | receivedAfterClosing
  /-- the stream ended without the closing handshake -/
  | resetWithoutClosingHandshake
  /-- the stream ended within the opening handshake -/
  | handshakeIncomplete
  /-- a frame of an unassigned kind -/
  | invalidOpcode (opcode : Nat)
  /-- the response of the opening handshake cannot be read -/
  | response (fault : ResponseFault)
  /-- the response speaks an older HTTP than an upgrade needs -/
  | httpVersion
  /-- the response does not upgrade to a WebSocket -/
  | missingUpgrade
  /-- the response does not say that the connection is upgraded -/
  | missingConnection
  /-- the response proves the wrong key -/
  | keyMismatch
  /-- the response picks a subprotocol, though none was offered -/
  | unrequestedSubprotocol
  /-- a bit of a frame that is reserved is set -/
  | reservedBits
  /-- a server's frame is masked -/
  | maskedFrame
  /-- a control frame is fragmented -/
  | fragmentedControl
  /-- the payload of a control frame is too long -/
  | controlTooBig
  /-- a continuation without a beginning -/
  | unexpectedContinuation
  /-- a new message began before the last one of that kind was complete -/
  | unfinished (kind : FragmentKind)
  /-- the payload of a close frame is a single octet -/
  | invalidCloseSequence
  deriving DecidableEq, Repr

/-- The wording of a broken rule. -/
def ProtocolFault.message : ProtocolFault → String
  | sendAfterClosing => "Sending after closing is not allowed"
  | receivedAfterClosing => "Remote sent after having closed"
  | resetWithoutClosingHandshake => "Connection reset without closing handshake"
  | handshakeIncomplete => "Handshake not finished"
  | invalidOpcode opcode => "Encountered invalid opcode: " ++ toString opcode
  | response fault => "httparse error: " ++ fault.message
  | httpVersion => "HTTP version must be 1.1 or higher"
  | missingUpgrade => "No \"Upgrade: websocket\" header"
  | missingConnection => "No \"Connection: upgrade\" header"
  | keyMismatch => "Key mismatch in \"Sec-WebSocket-Accept\" header"
  | unrequestedSubprotocol =>
    "SubProtocol error: Server sent a subprotocol but none was requested"
  | reservedBits => "Reserved bits are non-zero"
  | maskedFrame => "Received a masked frame from server"
  | fragmentedControl => "Fragmented control frame"
  | controlTooBig => "Control frame too big (payload must be 125 bytes or less)"
  | unexpectedContinuation => "Continue frame but nothing to continue"
  | unfinished kind => "While waiting for more fragments received: " ++ kind.name
  | invalidCloseSequence => "Invalid close sequence"

/-- Why an address cannot be dialled. -/
inductive AddressFault
  /-- there is no host -/
  | noHostName
  /-- the host is empty -/
  | emptyHostName
  /-- the scheme is none of a WebSocket, or no port can be told -/
  | unsupportedScheme
  /-- there is neither path nor query -/
  | noPathOrQuery
  /-- nobody answers there -/
  | unableToConnect (address : String)
  deriving DecidableEq, Repr

/-- The wording of a fault of an address. -/
def AddressFault.message : AddressFault → String
  | noHostName => "No host name in the URL"
  | emptyHostName => "URL contains empty host name"
  | unsupportedScheme => "URL scheme not supported"
  | noPathOrQuery => "No path/query in URL"
  | unableToConnect address => "Unable to connect to " ++ address

/-- A failure of a WebSocket. -/
inductive WebSocketFailure
  /-- the connection was closed as both sides wanted -/
  | connectionClosed
  /-- the connection is used after it was closed -/
  | alreadyClosed
  /-- the other side seems to attack -/
  | attackAttempt
  /-- a text is not valid UTF-8 -/
  | utf8
  /-- the stream underneath failed -/
  | io (failure : IoFailure)
  /-- the response has more headers than are read -/
  | tooManyHeaders
  /-- a message or frame is longer than is read -/
  | messageTooLong (size : Nat) (limit : Nat)
  /-- a rule of the protocol was broken -/
  | protocol (fault : ProtocolFault)
  /-- the address cannot be dialled -/
  | address (fault : AddressFault)
  /-- the server answered the upgrade with another status -/
  | http (status : Nat)
  /-- the server answered the upgrade with a number that is no status -/
  | statusOutOfRange
  /-- the address is no URI -/
  | uri (fault : Uri.Fault)
  deriving DecidableEq, Repr

/-- What a failure says. -/
def WebSocketFailure.message : WebSocketFailure → String
  | connectionClosed => "Connection closed normally"
  | alreadyClosed => "Trying to work with closed connection"
  | attackAttempt => "Attack attempt detected"
  | utf8 => "UTF-8 encoding error"
  | io failure => "IO error: " ++ failure.message
  | tooManyHeaders => "Space limit exceeded: Too many headers"
  | messageTooLong size limit =>
    "Space limit exceeded: Message too long: " ++ toString size ++ " > " ++ toString limit
  | protocol fault => "WebSocket protocol error: " ++ fault.message
  | address fault => "URL error: " ++ fault.message
  | http status => "HTTP error: " ++ Http.statusLine status
  | statusOutOfRange => "HTTP format error: invalid status code"
  | uri fault => "HTTP format error: " ++ fault.message

end PersistentLink
