/-!
# Broadcast with a bounded memory

Every subscriber of a broadcast receives what was sent after it subscribed, in order. Only the
latest items are kept; a subscriber who falls further behind is told how many it lost.

## Main definitions

- `Broadcast`: the items kept and the number of items sent
- `Broadcast.send`: sends an item to everybody
- `Broadcast.receive`: all that a subscriber can receive now
- `Broadcast.receiveOne`: the next thing that a subscriber can receive now
- `Received`: what a subscriber receives

## Main statements

- `Broadcast.items_receive_suffix`: what is received are the latest items
-/

namespace PersistentLink

/-- What a subscriber receives. -/
inductive Received (α : Type)
  /-- the next item -/
  | item (value : α)
  /-- so many items were lost, the oldest ones -/
  | lagged (count : Nat)
  /-- nobody can send any more, and nothing is left -/
  | closed
  deriving DecidableEq, Repr

/-- The item that was received. -/
def Received.item? {α : Type} : Received α → Option α
  | .item value => some value
  | .lagged _ | .closed => none

/-- A broadcast. -/
structure Broadcast (α : Type) where
  /-- so many items are kept -/
  capacity : Nat
  /-- items sent so far -/
  sent : Nat := 0
  /-- the latest items, the oldest first -/
  kept : List α := []
  deriving Repr

/-- How far a subscriber has come: the number of the next item it receives. -/
structure Subscription where
  /-- number of the next item -/
  next : Nat
  deriving DecidableEq, Repr

namespace Broadcast

variable {α : Type}

/-- A broadcast that keeps at least the given number of items: the number is rounded up to a power
of two, and is at least one. -/
def ofCapacity (capacity : Nat) : Broadcast α where
  capacity := (max capacity 1).nextPowerOfTwo

/-- Sends an item; the oldest one is forgotten when too many are kept. -/
def send (broadcast : Broadcast α) (value : α) : Broadcast α :=
  let kept := broadcast.kept ++ [value]
  { broadcast with
    sent := broadcast.sent + 1
    kept := kept.drop (kept.length - broadcast.capacity) }

/-- A subscriber who receives what is sent from now on. -/
def subscribe (broadcast : Broadcast α) : Subscription :=
  ⟨broadcast.sent⟩

/-- The number of the oldest item that is kept. -/
def oldest (broadcast : Broadcast α) : Nat :=
  broadcast.sent - broadcast.kept.length

/-- Everything that a subscriber can receive now, and how far it has come then. -/
def receive (broadcast : Broadcast α) (subscription : Subscription) (finished : Bool) :
    List (Received α) × Subscription :=
  let lost := broadcast.oldest - subscription.next
  let items := broadcast.kept.drop (subscription.next - broadcast.oldest)
  ((if lost = 0 then [] else [.lagged lost]) ++ items.map .item ++
      (if finished then [.closed] else []),
    broadcast.subscribe)

/-- The next thing that a subscriber can receive now, if there is one. -/
def receiveOne (broadcast : Broadcast α) (subscription : Subscription) (finished : Bool) :
    Option (Received α) × Subscription :=
  if subscription.next < broadcast.oldest then
    (some (.lagged (broadcast.oldest - subscription.next)), ⟨broadcast.oldest⟩)
  else
    match broadcast.kept[subscription.next - broadcast.oldest]? with
    | some value => (some (.item value), ⟨subscription.next + 1⟩)
    | none => (if finished then some .closed else none, subscription)

/-- The latest of the items that were sent are kept. -/
theorem kept_suffix_of_send {broadcast : Broadcast α} {earlier : List α}
    (hkept : broadcast.kept <:+ earlier) (items : List α) :
    (items.foldl send broadcast).kept <:+ earlier ++ items := by
  induction items generalizing broadcast earlier with
  | nil => simpa using hkept
  | cons value rest ih =>
    have hsent : (broadcast.send value).kept <:+ earlier ++ [value] :=
      (List.drop_suffix _ _).trans (List.suffix_append_self_iff.mpr hkept)
    simpa using ih hsent

/-- What is received are the latest items. -/
theorem items_receive_suffix (broadcast : Broadcast α) (subscription : Subscription)
    (finished : Bool) :
    (broadcast.receive subscription finished).1.filterMap Received.item? <:+ broadcast.kept := by
  have hitems : ((broadcast.receive subscription finished).1.filterMap Received.item?) =
      broadcast.kept.drop (subscription.next - broadcast.oldest) := by
    have hmap : Received.item? ∘ Received.item (α := α) = some := rfl
    unfold receive
    simp only [List.filterMap_append, List.filterMap_map, hmap, List.filterMap_some]
    split <;> split <;> simp [List.filterMap_cons, Received.item?]
  rw [hitems]
  exact List.drop_suffix _ _

end Broadcast

end PersistentLink
