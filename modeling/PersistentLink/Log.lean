import PersistentLink.Manager.Command

/-!
# The log

Everything the library logs is one of a fixed set of records. A record knows its severity, its
sentence and its fields, so what is logged can be compared with what is done.

## Main definitions

- `Level`: the severities
- `LogRecord`: the records
- `LogRecord.level`, `LogRecord.message`, `LogRecord.fields`: how a record is shown
- `LogRecord.keep`: the records at a severity or above
-/

namespace PersistentLink

/-- Severity of a record. -/
inductive Level
  | error
  | warn
  | info
  | debug
  | trace
  deriving DecidableEq, Repr

namespace Level

/-- The name of a severity. -/
def name : Level → String
  | error => "ERROR"
  | warn => "WARN"
  | info => "INFO"
  | debug => "DEBUG"
  | trace => "TRACE"

/-- How many severities are at least as severe, apart from the severity itself. -/
def rank : Level → Nat
  | error => 0
  | warn => 1
  | info => 2
  | debug => 3
  | trace => 4

end Level

/-- A field of a record. -/
inductive FieldValue
  | number (value : Nat)
  | flag (value : Bool)
  | text (value : String)
  deriving DecidableEq, Repr

/-- What the library logs. -/
inductive LogRecord
  /-- a manager was created for an endpoint -/
  | created (endpoint : String)
  /-- a command is about to be handled -/
  | handling (command : CommandOutline) (phase : Phase)
  /-- a message was queued, and an attempt starts because of it -/
  | queuedAndReconnecting (queued : Nat)
  /-- a message was queued while an attempt is in flight -/
  | queuedWhileConnecting (queued : Nat)
  /-- the result of an attempt came too late -/
  | staleAttempt (generation : Nat) (current : Nat)
  /-- an event came from a link that was replaced -/
  | staleLinkEvent (generation : Nat) (current : Nat)
  /-- an attempt starts -/
  | opening (generation : Nat) (url : String) (trigger : Trigger)
  /-- the link opened -/
  | opened (generation : Nat) (queued : Nat)
  /-- the queue was written -/
  | flushed (generation : Nat) (count : Nat)
  /-- an attempt that a message had started failed -/
  | reconnectFailed (generation : Nat) (error : String) (queued : Nat)
  /-- an attempt that callers had started failed -/
  | attemptFailed (generation : Nat) (error : String) (queued : Nat) (trigger : Trigger)
  /-- the callers who joined are given one more attempt -/
  | retrying (generation : Nat) (waiters : Nat)
  /-- a link that is already down reports its close -/
  | closeIgnored (code : UInt16) (phase : Phase)
  /-- the peer closed the link -/
  | linkClosed (generation : Nat) (status : CloseStatus)
  /-- a write failed -/
  | writeFailed (generation : Nat) (error : String) (queued : Nat)
  /-- an inbound message goes to the observers -/
  | dispatching (size : Nat) (observers : Nat)
  /-- an observer failed on an inbound message -/
  | observerPanicked (index : Nat)
  /-- all was released -/
  | reset (discarded : Nat)
  /-- the phase changed -/
  | transition (source : Phase) (target : Phase)
  /-- a writer was closed -/
  | linkReleased (generation : Nat)
  /-- a writer failed to close -/
  | releaseFailed (generation : Nat) (error : String)
  /-- a writer took too long to close -/
  | releaseTimedOut (generation : Nat)
  /-- nobody can give commands any more -/
  | shuttingDown
  /-- a reader passes an event on -/
  | forwarding (generation : Nat) (closed : Bool)
  /-- a reader finds that its manager is gone -/
  | readerOrphaned (generation : Nat)
  /-- an attempt finds that its manager is gone -/
  | attemptOrphaned (generation : Nat)
  /-- a message was sent to a manager that is gone -/
  | messageDropped
  /-- an observer was given to a manager that is gone -/
  | observerDropped
  /-- a control frame was skipped -/
  | controlFrameIgnored (kind : String)
  /-- the opening handshake is over -/
  | handshakeCompleted (url : String) (status : String)
  deriving DecidableEq, Repr

namespace LogRecord

/-- The severity of a record. Losing a link is a warning unless the peer closed it cleanly. -/
def level : LogRecord → Level
  | created _ | opening .. | opened .. | retrying .. | reset _ => .info
  | linkClosed _ status => if status.isNormal then .info else .warn
  | reconnectFailed .. | attemptFailed .. | writeFailed .. => .warn
  | observerPanicked _ | messageDropped | observerDropped => .error
  | queuedAndReconnecting _ | queuedWhileConnecting _ | staleAttempt .. | flushed ..
  | releaseFailed .. | releaseTimedOut _ | shuttingDown | readerOrphaned _ | attemptOrphaned _
  | handshakeCompleted .. => .debug
  | handling .. | staleLinkEvent .. | closeIgnored .. | dispatching .. | transition ..
  | linkReleased _ | forwarding .. | controlFrameIgnored _ => .trace

/-- The sentence of a record. -/
def message : LogRecord → String
  | created _ => "ConnectionManager actor created and running"
  | handling .. => "Handling manager command"
  | queuedAndReconnecting _ =>
    "Not connected, queuing message and reconnecting in the background"
  | queuedWhileConnecting _ => "Connection in progress, queuing message"
  | staleAttempt .. => "Discarding stale attempt result"
  | staleLinkEvent .. => "Discarding event from replaced link"
  | opening .. => "Opening connection"
  | opened .. => "Connection opened"
  | flushed .. => "Flushed queued messages"
  | reconnectFailed .. => "Background reconnect failed"
  | attemptFailed .. => "Connection attempt failed"
  | retrying .. => "Retrying once for callers that joined the failed attempt"
  | closeIgnored .. => "Ignoring close of a link that is already down"
  | linkClosed _ status =>
    if status.isNormal then "Connection closed"
    else "Connection closed unexpectedly, a later send or connect will reconnect"
  | writeFailed .. => "Write failed, treating the link as lost"
  | dispatching .. => "Dispatching inbound message"
  | observerPanicked _ => "Observer panicked while handling an inbound message"
  | reset _ => "Connection manager reset"
  | transition .. => "State transition"
  | linkReleased _ => "Closed link"
  | releaseFailed .. => "Failed to close link cleanly"
  | releaseTimedOut _ => "Timed out closing link"
  | shuttingDown => "All manager handles dropped, shutting down"
  | forwarding .. => "link_reader_task forwarding event"
  | readerOrphaned _ => "Manager is gone, stopping link reader"
  | attemptOrphaned _ => "Manager is gone, dropping attempt result"
  | messageDropped => "Connection manager actor is gone, dropping message"
  | observerDropped => "Connection manager actor is gone, dropping observer"
  | controlFrameIgnored _ => "Ignoring control frame"
  | handshakeCompleted .. => "WebSocket handshake completed"

/-- The fields of a record, by name. -/
def fields : LogRecord → List (String × FieldValue)
  | created endpoint => [("endpoint", .text endpoint)]
  | handling command phase => [("command", .text command.text), ("state", .text phase.name)]
  | queuedAndReconnecting queued | queuedWhileConnecting queued => [("queued", .number queued)]
  | staleAttempt generation current | staleLinkEvent generation current =>
    [("generation", .number generation), ("current", .number current)]
  | opening generation url trigger =>
    [("generation", .number generation), ("url", .text url), ("trigger", .text trigger.name)]
  | opened generation queued => [("generation", .number generation), ("queued", .number queued)]
  | flushed generation count =>
    [("generation", .number generation), ("flushed", .number count)]
  | reconnectFailed generation error queued | writeFailed generation error queued =>
    [("generation", .number generation), ("error", .text error), ("queued", .number queued)]
  | attemptFailed generation error queued trigger =>
    [("generation", .number generation), ("error", .text error), ("queued", .number queued),
     ("trigger", .text trigger.name)]
  | retrying generation waiters =>
    [("generation", .number generation), ("waiters", .number waiters)]
  | closeIgnored code phase => [("code", .number code.toNat), ("state", .text phase.name)]
  | linkClosed generation status =>
    [("generation", .number generation), ("code", .number status.code.toNat),
     ("reason", .text status.reason)]
  | dispatching size observers => [("len", .number size), ("observers", .number observers)]
  | observerPanicked index => [("index", .number index)]
  | reset discarded => [("discarded", .number discarded)]
  | transition source target => [("from", .text source.name), ("to", .text target.name)]
  | linkReleased generation | releaseTimedOut generation | readerOrphaned generation
  | attemptOrphaned generation => [("generation", .number generation)]
  | releaseFailed generation error =>
    [("generation", .number generation), ("error", .text error)]
  | forwarding generation closed =>
    [("generation", .number generation), ("closed", .flag closed)]
  | controlFrameIgnored kind => [("kind", .text kind)]
  | handshakeCompleted url status => [("url", .text url), ("status", .text status)]
  | shuttingDown | messageDropped | observerDropped => []

/-- The records of at least the given severity, in order. -/
def keep (level : Level) (records : List LogRecord) : List LogRecord :=
  records.filter (·.level.rank ≤ level.rank)

end LogRecord

end PersistentLink
