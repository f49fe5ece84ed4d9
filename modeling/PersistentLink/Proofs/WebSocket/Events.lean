import PersistentLink.Proofs.LinkReader
import PersistentLink.WebSocket.Item

/-!
# Events of a WebSocket

The items that a WebSocket yields are turned into events one call after the other. A call passes
over control frames, as many as there are, and comes back with a message or with the close of the
link. Read up to the first close, a sequence of items comes to its messages, in order, and one
close, which the first item that is a close or a failure brings about, or else the end of the
sequence.

## Main definitions

- `Item.payload?`, `Item.isControl`, `Item.isLast`: the three kinds of items
- `lastStatus`: the status that a link reports when it closes
- `nextEvents`: the events of so many calls
- `Item.opening`, `Item.unread`: the items before the one that closes the link, and those after it

## Main results

- `eventsOf_eq`: the events up to the first close
- `nextEvents_eventsOf`: the calls that these take, and what is left after them
- `run_nextEvents`: what the reader of the link passes on
-/

namespace PersistentLink.WebSocket

variable {item : Item} {items rest : List Item} {event : LinkEvent} {payload : Payload}
  {status : CloseStatus}

namespace Item

/-- The message in an item. -/
def payload? : Item → Option Payload
  | text content => some (.text content)
  | binary content => some (.binary content)
  | _ => none

/-- Whether an item is there for the WebSocket alone. -/
def isControl : Item → Bool
  | ping _ | pong _ | frame _ => true
  | _ => false

/-- Whether a link is closed after an item. -/
def isLast : Item → Bool
  | close _ | failure _ => true
  | _ => false

/-- The items before the one that closes the link. -/
def opening (items : List Item) : List Item :=
  items.takeWhile (!·.isLast)

/-- The items after the one that closes the link. -/
def unread (items : List Item) : List Item :=
  (items.dropWhile (!·.isLast)).tail

end Item

/-- The status that a link reports when it closes: for the item that closes it, or for the end of
the stream. -/
def lastStatus : Option Item → CloseStatus
  | some (.close (some status)) => status
  | some (.close none) => ⟨1005, ""⟩
  | some (.failure cause) => ⟨1006, cause.message⟩
  | _ => ⟨1006, "stream ended without close frame"⟩

/-- The events of so many calls, what is logged on the way, and the items that are left. Calls
are made after the close, too. -/
def nextEvents : Nat → List Item → List LinkEvent × List LogRecord × List Item
  | 0, items => ([], [], items)
  | calls + 1, items =>
    let (event, log, rest) := nextEvent items
    let (events, later, rest) := nextEvents calls rest
    (event :: events, log ++ later, rest)

/-! ## The three kinds of items -/

theorem Item.event?_eq_none_iff : item.event? = none ↔ item.isControl = true := by
  cases item <;> simp [event?, isControl]

theorem Item.event?_eq_message_iff :
    item.event? = some (.message payload) ↔ item.payload? = some payload := by
  cases item <;> simp [event?, payload?]

theorem Item.event?_eq_closed_iff :
    item.event? = some (.closed status) ↔ item.isLast = true ∧ lastStatus (some item) = status := by
  cases item with
  | close status =>
    cases status <;> simp [event?, isLast, lastStatus, CloseStatus.absent, CloseStatus.absentCode]
  | failure cause =>
    simp [event?, isLast, lastStatus, CloseStatus.abnormal, CloseStatus.abnormalCode]
  | _ => simp [event?, isLast]

theorem Item.of_isControl (h : item.isControl = true) :
    item.isLast = false ∧ item.payload? = none := by
  cases item <;> simp_all [isControl, isLast, payload?]

theorem Item.of_payload? (h : item.payload? = some payload) :
    item.isLast = false ∧ item.isControl = false := by
  cases item <;> simp_all [isControl, isLast, payload?]

theorem Item.opening_cons (h : item.isLast = false) :
    opening (item :: rest) = item :: opening rest := by
  simp [opening, h]

theorem Item.unread_cons (h : item.isLast = false) : unread (item :: rest) = unread rest := by
  simp [unread, h]

theorem Item.opening_of_isLast (h : item.isLast = true) : opening (item :: rest) = [] := by
  simp [opening, h]

theorem Item.unread_of_isLast (h : item.isLast = true) : unread (item :: rest) = rest := by
  simp [unread, h]

/-! ## A single call -/

theorem nextEvent_of_some (h : item.event? = some event) :
    nextEvent (item :: rest) = (event, [], rest) := by
  simp [nextEvent, Item.log, h]

theorem nextEvent_of_none (h : item.event? = none) :
    nextEvent (item :: rest) =
      ((nextEvent rest).1, .controlFrameIgnored item.kindName :: (nextEvent rest).2.1,
        (nextEvent rest).2.2) := by
  simp [nextEvent, Item.log, h]

/-! ## Calls up to the first close -/

theorem eventsOf_eq_ite (items : List Item) :
    eventsOf items =
      if (nextEvent items).1.isClosed then [(nextEvent items).1]
      else (nextEvent items).1 :: eventsOf (nextEvent items).2.2 := by
  rw [eventsOf]
  split
  next event log rest hnext =>
    rw [hnext]
    split
    next hclosed => simp [hclosed]
    next hopen => simp [hopen]

theorem eventsOf_nil : eventsOf [] = [.closed (lastStatus none)] := by
  rw [eventsOf_eq_ite]
  rfl

theorem eventsOf_of_closed (h : item.event? = some (.closed status)) :
    eventsOf (item :: rest) = [.closed status] := by
  rw [eventsOf_eq_ite, nextEvent_of_some h]
  rfl

theorem eventsOf_of_message (h : item.event? = some (.message payload)) :
    eventsOf (item :: rest) = .message payload :: eventsOf rest := by
  rw [eventsOf_eq_ite, nextEvent_of_some h]
  rfl

theorem eventsOf_of_none (h : item.event? = none) : eventsOf (item :: rest) = eventsOf rest := by
  rw [eventsOf_eq_ite, eventsOf_eq_ite rest, nextEvent_of_none h]

/-- Up to the first close, the events are the messages before the item that closes the link, and
the close. -/
theorem eventsOf_eq (items : List Item) :
    eventsOf items =
      ((Item.opening items).filterMap Item.payload?).map LinkEvent.message ++
        [.closed (lastStatus (items.find? Item.isLast))] := by
  induction items with
  | nil => exact eventsOf_nil
  | cons item rest ih =>
    cases hevent : item.event? with
    | none =>
      obtain ⟨hlast, hpayload⟩ := Item.of_isControl (Item.event?_eq_none_iff.mp hevent)
      rw [eventsOf_of_none hevent, ih]
      simp [Item.opening, hlast, hpayload]
    | some event =>
      cases event with
      | message payload =>
        have hpayload := Item.event?_eq_message_iff.mp hevent
        obtain ⟨hlast, -⟩ := Item.of_payload? hpayload
        rw [eventsOf_of_message hevent, ih]
        simp [Item.opening, hlast, hpayload]
      | closed status =>
        obtain ⟨hlast, hstatus⟩ := Item.event?_eq_closed_iff.mp hevent
        rw [eventsOf_of_closed hevent, Item.opening_of_isLast hlast]
        simp [hlast, hstatus]

/-- Control frames may be put in and taken out anywhere. -/
theorem eventsOf_filter (items : List Item) :
    eventsOf (items.filter (!·.isControl)) = eventsOf items := by
  induction items with
  | nil => rfl
  | cons item rest ih =>
    rw [List.filter_cons]
    cases hevent : item.event? with
    | none => simp [Item.event?_eq_none_iff.mp hevent, eventsOf_of_none hevent, ih]
    | some event =>
      have hkept : item.isControl = false := by
        rw [← Bool.not_eq_true, ← Item.event?_eq_none_iff, hevent]
        exact Option.some_ne_none event
      rw [hkept, if_pos Bool.not_false]
      cases event with
      | message payload => rw [eventsOf_of_message hevent, eventsOf_of_message hevent, ih]
      | closed status => rw [eventsOf_of_closed hevent, eventsOf_of_closed hevent]

/-! ## Any number of calls -/

/-- A call that begins at a control frame goes on with what follows it. -/
theorem nextEvents_of_none {calls : Nat} (h : item.event? = none) :
    nextEvents (calls + 1) (item :: rest) =
      ((nextEvents (calls + 1) rest).1,
        .controlFrameIgnored item.kindName :: (nextEvents (calls + 1) rest).2.1,
        (nextEvents (calls + 1) rest).2.2) := by
  simp [nextEvents, nextEvent_of_none h]

theorem nextEvents_of_some {calls : Nat} (h : item.event? = some event) :
    nextEvents (calls + 1) (item :: rest) =
      (event :: (nextEvents calls rest).1, (nextEvents calls rest).2) := by
  simp [nextEvents, nextEvent_of_some h]

theorem nextEvents_add (calls more : Nat) (items : List Item) :
    nextEvents (calls + more) items =
      ((nextEvents calls items).1 ++ (nextEvents more (nextEvents calls items).2.2).1,
        (nextEvents calls items).2.1 ++ (nextEvents more (nextEvents calls items).2.2).2.1,
        (nextEvents more (nextEvents calls items).2.2).2.2) := by
  induction calls generalizing items with
  | zero => simp [nextEvents]
  | succ calls ih =>
    rw [Nat.add_right_comm]
    simp [nextEvents, ih]

theorem length_eventsOf (items : List Item) :
    (eventsOf items).length = ((Item.opening items).filterMap Item.payload?).length + 1 := by
  simp [eventsOf_eq]

/-- As many calls as there are events up to the first close return these events. They pass over
the control frames before the close, and leave what comes after it. -/
theorem nextEvents_eventsOf (items : List Item) :
    nextEvents (eventsOf items).length items =
      (eventsOf items,
        ((Item.opening items).filter Item.isControl).map (.controlFrameIgnored ·.kindName),
        Item.unread items) := by
  induction items with
  | nil =>
    rw [eventsOf_nil]
    rfl
  | cons item rest ih =>
    cases hevent : item.event? with
    | none =>
      -- the first call goes past the control frame, and there is one since some close comes
      have hcontrol := Item.event?_eq_none_iff.mp hevent
      obtain ⟨hlast, -⟩ := Item.of_isControl hcontrol
      rw [length_eventsOf] at ih
      rw [eventsOf_of_none hevent, length_eventsOf, nextEvents_of_none hevent, ih,
        Item.opening_cons hlast, Item.unread_cons hlast, List.filter_cons_of_pos hcontrol]
      rfl
    | some event =>
      cases event with
      | message payload =>
        obtain ⟨hlast, hcontrol⟩ := Item.of_payload? (Item.event?_eq_message_iff.mp hevent)
        rw [eventsOf_of_message hevent, List.length_cons, nextEvents_of_some hevent, ih,
          Item.opening_cons hlast, Item.unread_cons hlast,
          List.filter_cons_of_neg (by simp [hcontrol])]
      | closed status =>
        obtain ⟨hlast, -⟩ := Item.event?_eq_closed_iff.mp hevent
        rw [eventsOf_of_closed hevent, Item.opening_of_isLast hlast, Item.unread_of_isLast hlast]
        exact nextEvents_of_some hevent

/-! ## The reader of the link -/

theorem closesAt_messages (payloads : List Payload) (status : CloseStatus)
    (more : List LinkEvent) :
    LinkReader.ClosesAt none (payloads.map .message ++ .closed status :: more)
      payloads.length := by
  have hnone : (payloads.map LinkEvent.message).findIdx? LinkEvent.isClosed = none := by
    simp [List.findIdx?_eq_none_iff, LinkEvent.isClosed]
  refine ⟨?_, by simp⟩
  rw [List.findIdx?_append, hnone]
  simp [List.findIdx?_cons, LinkEvent.isClosed]

/-- The reader of a link passes the events up to the first close on, and makes no more calls. -/
theorem run_nextEvents (generation : Nat) {calls : Nat} (h : (eventsOf items).length ≤ calls) :
    LinkReader.run generation none (nextEvents calls items).1 =
      ⟨true, (eventsOf items).length, LinkReader.tagged generation (eventsOf items),
        LinkReader.announced generation (eventsOf items)⟩ := by
  obtain ⟨more, rfl⟩ := Nat.exists_eq_add_of_le h
  have hevents : (nextEvents ((eventsOf items).length + more) items).1 =
      eventsOf items ++ (nextEvents more (Item.unread items)).1 := by
    rw [nextEvents_add, nextEvents_eventsOf]
  have hcloses := closesAt_messages ((Item.opening items).filterMap Item.payload?)
    (lastStatus (items.find? Item.isLast)) (nextEvents more (Item.unread items)).1
  rw [List.append_cons, ← eventsOf_eq] at hcloses
  rw [hevents, LinkReader.run_of_closesAt hcloses, ← length_eventsOf, List.take_left']
  rfl

end PersistentLink.WebSocket
