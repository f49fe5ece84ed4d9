import PersistentLink.LinkEvent

/-!
# The life of a connection

A managed connection is idle, connecting, live or down, and every change of that is published
as an event. Attempts and resets are counted by a generation, which tells what belongs to the
present attempt from what is late.

## Main definitions

- `Phase`: where the connection stands
- `Trigger`: what started an attempt
- `LifecycleEvent`: a published change
- `LifecycleEvent.phase`: where the connection stands right after a change
-/

namespace PersistentLink

/-- Where a managed connection stands. -/
inductive Phase
  /-- nothing was opened yet, or all was released -/
  | idle
  /-- an attempt is in flight -/
  | connecting
  /-- a link is open, and messages are written at once -/
  | live
  /-- the last attempt failed, or the open link was lost -/
  | down
  deriving DecidableEq, Repr, Inhabited

namespace Phase

/-- The name under which a phase is shown. -/
def name : Phase → String
  | idle => "idle"
  | connecting => "connecting"
  | live => "open"
  | down => "closed"

/-- The phase shown under a name. -/
def ofName? : String → Option Phase
  | "idle" => some idle
  | "connecting" => some connecting
  | "open" => some live
  | "closed" => some down
  | _ => none

/-- Whether an attempt may start: none is in flight and no link is open. -/
def mayStartAttempt : Phase → Bool
  | idle | down => true
  | connecting | live => false

/-- Whether outbound messages wait in the queue. -/
def queuesOutbound (phase : Phase) : Bool :=
  phase != live

@[simp]
theorem ofName?_name (phase : Phase) : ofName? phase.name = some phase := by
  cases phase <;> rfl

end Phase

/-- What started an attempt. -/
inductive Trigger
  /-- a caller asked for the connection -/
  | caller
  /-- a message was sent while no connection stood -/
  | send
  /-- callers who had joined a failed attempt are given one more -/
  | retry
  deriving DecidableEq, Repr, Inhabited

/-- The name under which a trigger is shown. -/
def Trigger.name : Trigger → String
  | caller => "Caller"
  | send => "Send"
  | retry => "Retry"

/-- A change in the life of a connection. -/
inductive LifecycleEvent
  /-- an attempt has started -/
  | connecting (generation : Nat) (trigger : Trigger)
  /-- the link opened, and that many queued messages were written -/
  | opened (generation : Nat) (flushed : Nat)
  /-- the attempt failed; the queue is kept -/
  | connectFailed (generation : Nat) (trigger : Trigger) (reason : String)
  /-- the open link was closed by the peer or lost -/
  | closed (generation : Nat) (status : CloseStatus)
  /-- all was released, and that many queued messages were discarded -/
  | reset (discarded : Nat)
  deriving DecidableEq, Repr

/-- Where the connection stands right after a change. -/
def LifecycleEvent.phase : LifecycleEvent → Phase
  | connecting .. => .connecting
  | opened .. => .live
  | connectFailed .. => .down
  | closed .. => .down
  | reset .. => .idle

end PersistentLink
