import PersistentLink.Failure.WebSocket
import PersistentLink.Log

/-!
# Items

What a WebSocket yields while it is read is a sequence of items: messages, control frames, a
close or a failure. A reader of the link turns them into link events.

## Main definitions

- `Item`: what is yielded
- `Item.event?`: the event of an item, if it has one
- `Reading`: what a single read comes to
- `nextEvent`: the next event of a sequence of items
- `eventsOf`: all events of a sequence of items
-/

namespace PersistentLink.WebSocket

/-- What a WebSocket yields. -/
inductive Item
  /-- a message of text -/
  | text (content : String)
  /-- a message of octets -/
  | binary (content : Bytes)
  /-- the other side asks for a pong -/
  | ping (content : Bytes)
  /-- the other side answers a ping -/
  | pong (content : Bytes)
  /-- a frame that was not looked into -/
  | frame (content : Bytes)
  /-- the other side closes, with or without a status -/
  | close (status : Option CloseStatus)
  /-- reading failed -/
  | failure (cause : WebSocketFailure)
  deriving DecidableEq, Repr

/-- The close that a link reports when its stream ends without one. -/
def streamEnded : CloseStatus :=
  .abnormal "stream ended without close frame"

namespace Item

/-- The event of an item. Control frames are answered by the WebSocket itself, and are no
events. -/
def event? : Item → Option LinkEvent
  | text content => some (.message (.text content))
  | binary content => some (.message (.binary content))
  | ping _ | pong _ | frame _ => none
  | close status => some (.closed (status.getD .absent))
  | failure cause => some (.closed (.abnormal cause.message))

/-- The name of an item's kind in the log. -/
def kindName : Item → String
  | text _ => "text"
  | binary _ => "binary"
  | ping _ => "ping"
  | pong _ => "pong"
  | frame _ => "frame"
  | close _ => "close"
  | failure _ => "failure"

/-- What is logged about an item: that it is skipped, if it is no event. -/
def log (item : Item) : List LogRecord :=
  if item.event?.isSome then [] else [.controlFrameIgnored item.kindName]

end Item

/-- What a single read comes to. -/
inductive Reading
  /-- an item -/
  | item (item : Item)
  /-- the end of the stream -/
  | finished
  /-- nothing yet -/
  | waiting
  deriving DecidableEq, Repr

/-- The next event of a sequence of items that ends, what is logged on the way, and the items that
follow. -/
def nextEvent : List Item → LinkEvent × List LogRecord × List Item
  | [] => (.closed streamEnded, [], [])
  | item :: rest =>
    match item.event? with
    | some event => (event, item.log, rest)
    | none =>
      let (event, log, rest) := nextEvent rest
      (event, item.log ++ log, rest)

/-- An event that is not the close was taken from an item. -/
theorem nextEvent_length {items rest : List Item} {event : LinkEvent} {log : List LogRecord}
    (h : nextEvent items = (event, log, rest)) (hopen : event.isClosed = false) :
    rest.length < items.length := by
  induction items generalizing event log rest with
  | nil =>
    simp only [nextEvent, Prod.mk.injEq] at h
    obtain ⟨rfl, _⟩ := h
    cases hopen
  | cons item items ih =>
    unfold nextEvent at h
    split at h
    · simp only [Prod.mk.injEq] at h
      obtain ⟨_, _, rfl⟩ := h
      simp
    · simp only [Prod.mk.injEq] at h
      obtain ⟨rfl, _, rfl⟩ := h
      have := ih rfl hopen
      simp only [List.length_cons]
      omega

/-- The events of a sequence of items that ends, read one after the other up to the first close. -/
def eventsOf (items : List Item) : List LinkEvent :=
  match _h : nextEvent items with
  | (event, _, rest) =>
    match _hopen : event.isClosed with
    | true => [event]
    | false => event :: eventsOf rest
termination_by items.length
decreasing_by exact nextEvent_length _h _hopen

end PersistentLink.WebSocket
