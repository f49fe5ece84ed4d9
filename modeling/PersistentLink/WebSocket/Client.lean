import PersistentLink.WebSocket.Frame
import PersistentLink.WebSocket.Item
import PersistentLink.Failure.Basic
import PersistentLink.Utf8

/-!
# The client's side of an open WebSocket

The client sends masked frames and reads the server's, which are not masked. It puts fragments
together, answers pings, and takes part in the closing handshake.

## Main definitions

- `Standing`: how far the closing has come
- `Dialogue`: what the client remembers of the frames so far
- `Dialogue.accept`: takes the server's next frame
- `Client`: the dialogue, what was received and what was sent
- `Client.read`: a single read
- `Client.next`: the next link event
- `Client.send`, `Client.close`: what the writer does

## Design notes

The answer to a ping or to a close is not sent at once. It is kept until the client reads again,
or until the client sends something of its own, which then goes first. At most one answer is
kept; a close takes the place of a pong, and not the other way round.

A read that fails is the last one: all later reads find the stream at its end. Sending is not
affected by that.
-/

namespace PersistentLink.WebSocket

/-- So many octets may a message have. -/
def messageLimit : Nat := 67108864

/-- So many octets may the payload of a control frame have. -/
def controlLimit : Nat := 125

/-- How far the closing of a connection has come. -/
inductive Standing
  /-- nobody has closed -/
  | active
  /-- the client has closed and waits for the server to do the same -/
  | closedByUs
  /-- the server has closed, and the client answers that -/
  | closedByPeer
  /-- the server has answered the client's close -/
  | acknowledged
  /-- the stream has ended -/
  | terminated
  deriving DecidableEq, Repr, Inhabited

/-- A message of which the last fragment is still to come. -/
inductive Fragments
  | text (decoder : Utf8.Decoder)
  | binary (octets : Bytes)
  deriving DecidableEq, Repr

namespace Fragments

/-- The octets so far. -/
def size : Fragments → Nat
  | text decoder => decoder.size
  | binary octets => octets.length

/-- A message with a further fragment. -/
def extend (fragments : Fragments) (payload : Bytes) : Except WebSocketFailure Fragments :=
  let size := fragments.size + payload.length
  if messageLimit < size then .error (.messageTooLong size messageLimit)
  else
    match fragments with
    | text decoder =>
      match decoder.readAll payload with
      | some decoder => .ok (text decoder)
      | none => .error .utf8
    | binary octets => .ok (binary (octets ++ payload))

/-- The whole message. -/
def finish : Fragments → Except WebSocketFailure Item
  | text decoder =>
    match decoder.finish with
    | some content => .ok (.text content)
    | none => .error .utf8
  | binary octets => .ok (.binary octets)

end Fragments

/-- Whether a code may travel in a close frame. -/
def isCloseCode (code : Nat) : Bool :=
  (1000 ≤ code && code ≤ 1003) || (1007 ≤ code && code ≤ 1013) || (3000 ≤ code && code ≤ 4999)

/-- The status that a close frame carries, if it carries one. -/
def closeStatusOf : Bytes → Except WebSocketFailure (Option CloseStatus)
  | [] => .ok none
  | [_] => .error (.protocol .invalidCloseSequence)
  | high :: low :: reason =>
    match Utf8.decode reason with
    | some reason => .ok (some ⟨UInt16.ofNat (bigEndian [high, low]), reason⟩)
    | none => .error .utf8

/-- The payload of a close frame with the given status. -/
def closePayload : Option CloseStatus → Bytes
  | none => []
  | some status =>
    UInt8.ofNat (status.code.toNat / 256) :: UInt8.ofNat (status.code.toNat % 256) ::
      Utf8.encode status.reason

/-- The status that stands in for one with a code that may not travel. -/
def protocolViolation : CloseStatus :=
  ⟨1002, "Protocol violation"⟩

/-- The status as it is answered and reported when the server closes first. -/
def admittedStatus (status : CloseStatus) : CloseStatus :=
  if isCloseCode status.code.toNat then status else protocolViolation

namespace Frame

/-- A frame as the client sends it. -/
def ofClient (opcode : Opcode) (payload : Bytes) : Frame :=
  { opcode, masked := true, payload }

/-- The client's close frame. -/
def close (status : Option CloseStatus) : Frame :=
  ofClient .close (closePayload status)

/-- The client's frame for a message. -/
def ofPayload : Payload → Frame
  | .text content => ofClient .text (Utf8.encode content)
  | .binary content => ofClient .binary content

end Frame

/-- What the client remembers of the frames so far. -/
structure Dialogue where
  standing : Standing := .active
  /-- the message that was begun -/
  fragments : Option Fragments := none
  /-- the answer that was not sent yet -/
  answer : Option Frame := none
  deriving DecidableEq, Repr, Inhabited

namespace Dialogue

/-- Keeps an answer, unless a close is kept already. -/
def reply (d : Dialogue) (frame : Frame) : Dialogue :=
  if d.answer.all (·.opcode == .pong) then { d with answer := some frame } else d

/-- The server closes. -/
def acceptClose (d : Dialogue) (status : Option CloseStatus) : Option Item × Dialogue :=
  match d.standing with
  | .active =>
    let status := status.map admittedStatus
    (some (.close status), { d with standing := .closedByPeer }.reply (.close status))
  | .closedByUs => (some (.close status), { d with standing := .acknowledged })
  | .closedByPeer | .acknowledged | .terminated => (none, d)

/-- Takes a control frame. -/
def acceptControl (d : Dialogue) (frame : Frame) :
    Except WebSocketFailure (Option Item × Dialogue) :=
  if !frame.final then .error (.protocol .fragmentedControl)
  else if controlLimit < frame.payload.length then .error (.protocol .controlTooBig)
  else
    match frame.opcode with
    | .close => do
      let status ← closeStatusOf frame.payload
      .ok (d.acceptClose status)
    | .ping =>
      let d :=
        if d.standing = .active then d.reply (.ofClient .pong frame.payload) else d
      .ok (some (.ping frame.payload), d)
    | _ => .ok (some (.pong frame.payload), d)

/-- Takes a fragment of a message. -/
def acceptFragment (d : Dialogue) (fragments : Fragments) (frame : Frame) :
    Except WebSocketFailure (Option Item × Dialogue) := do
  let fragments ← fragments.extend frame.payload
  if frame.final then
    let item ← fragments.finish
    .ok (some item, { d with fragments := none })
  else .ok (none, { d with fragments := some fragments })

/-- Takes a frame that is part of a message. -/
def acceptData (d : Dialogue) (frame : Frame) :
    Except WebSocketFailure (Option Item × Dialogue) :=
  match frame.opcode, d.fragments with
  | .continuation, some fragments => d.acceptFragment fragments frame
  | .continuation, none => .error (.protocol .unexpectedContinuation)
  | .text, some _ => .error (.protocol (.unfinished .text))
  | .text, none => d.acceptFragment (.text {}) frame
  | _, some _ => .error (.protocol (.unfinished .binary))
  | _, none => d.acceptFragment (.binary []) frame

/-- Takes the server's next frame: it may make up an item, or break a rule. -/
def accept (d : Dialogue) (frame : Frame) :
    Except WebSocketFailure (Option Item × Dialogue) :=
  if d.standing ≠ .active ∧ d.standing ≠ .closedByUs then .error (.protocol .receivedAfterClosing)
  else if frame.reserved ≠ 0 then .error (.protocol .reservedBits)
  else if frame.masked then .error (.protocol .maskedFrame)
  else if frame.opcode.isControl then d.acceptControl frame
  else d.acceptData frame

end Dialogue

/-- The client's side of an open WebSocket. -/
structure Client where
  dialogue : Dialogue := {}
  /-- octets that were received and not read yet -/
  received : Bytes := []
  /-- the server sends nothing more -/
  ended : Bool := false
  /-- a read has failed -/
  exhausted : Bool := false
  /-- the frames sent, the oldest first -/
  sent : List Frame := []
  deriving Repr, Inhabited

namespace Client

/-! ## Reading -/

/-- Sends the answer that was kept. -/
def flush (c : Client) : Client :=
  { c with
    sent := c.sent ++ c.dialogue.answer.toList
    dialogue := { c.dialogue with answer := none } }

/-- A read fails. -/
def fail (c : Client) (failure : WebSocketFailure) : Reading × Client :=
  (.item (.failure failure), { c with exhausted := true })

/-- The stream ends: as it should after the closing handshake, or too early. -/
def atEnd (c : Client) : Reading × Client :=
  let finished := { c with dialogue := { c.dialogue with standing := .terminated } }
  match c.dialogue.standing with
  | .closedByPeer | .acknowledged => (.finished, { finished with exhausted := true })
  | _ => finished.fail (.protocol .resetWithoutClosingHandshake)

/-- Reads frames until there is an item, or nothing to read. -/
def readFrames (c : Client) : Reading × Client :=
  match _h : Frame.read c.received with
  | .incomplete => if c.ended then c.atEnd else (.waiting, c)
  | .failure failure => c.fail failure
  | .frame frame rest =>
    match c.dialogue.accept frame with
    | .error failure => { c with received := rest }.fail failure
    | .ok (some item, dialogue) => (.item item, { c with received := rest, dialogue })
    | .ok (none, dialogue) => ({ c with received := rest, dialogue }).flush.readFrames
termination_by c.received.length
decreasing_by exact Frame.read_length _h

/-- A single read. It sends the answer that was kept first. -/
def read (c : Client) : Reading × Client :=
  if c.exhausted || c.dialogue.standing == .terminated then
    (.finished, { c with exhausted := true })
  else c.flush.readFrames

/-- The next link event, with at most the given number of reads. -/
def nextWithin : Nat → Client → Option LinkEvent × List LogRecord × Client
  | 0, c => (none, [], c)
  | reads + 1, c =>
    match c.read with
    | (.waiting, c) => (none, [], c)
    | (.finished, c) => (some (.closed streamEnded), [], c)
    | (.item item, c) =>
      match item.event? with
      | some event => (some event, item.log, c)
      | none =>
        let (event, log, c) := nextWithin reads c
        (event, item.log ++ log, c)

/-- The next link event, if there is one by now. Every read but the last takes a frame. -/
def next (c : Client) : Option LinkEvent × List LogRecord × Client :=
  nextWithin (c.received.length + 1) c

/-! ## Writing -/

/-- Sends a frame, and after it the answer that was kept. Nothing is sent once either side has
closed. -/
def write (c : Client) (frame : Frame) (standing : Standing) :
    Except WebSocketFailure Unit × Client :=
  match c.dialogue.standing with
  | .terminated => (.error .alreadyClosed, c)
  | .active =>
    (.ok (),
      { c with
        sent := c.sent ++ [frame]
        dialogue := { c.dialogue with standing } }.flush)
  | _ => (.error (.protocol .sendAfterClosing), c)

/-- Sends a message. -/
def send (c : Client) (payload : Payload) : Except Failure Unit × Client :=
  let (result, c) := c.write (.ofPayload payload) .active
  (result.mapError .webSocket, c)

/-- Begins the closing. That the stream has ended already is as good as a close. -/
def close (c : Client) : Except Failure Unit × Client :=
  match c.write (.close (some ⟨CloseStatus.normalCode, ""⟩)) .closedByUs with
  | (.error .connectionClosed, c) | (.error .alreadyClosed, c) => (.ok (), c)
  | (result, c) => (result.mapError .webSocket, c)

end Client

end PersistentLink.WebSocket
