import PersistentLink.Manager.Lifecycle

/-!
# What callers ask for

Callers never touch a connection. They put commands into a queue, which is served in order. A
command that is answered carries the number of the call, under which the answer goes out.

## Main definitions

- `Command`: the commands
- `CommandOutline`: a command without what it carries, as it is shown in the log
- `Snapshot`: the books of a manager at one moment
-/

namespace PersistentLink

/-- Number of a call that waits for an answer. -/
abbrev CallId := Nat

/-- Number of an observer of inbound messages. -/
abbrev ObserverId := Nat

/-- Number of a request for the books. -/
abbrev QueryId := Nat

/-- Number of an open link. -/
abbrev LinkId := Nat

/-- What a caller asks the manager for. -/
inductive Command
  /-- answer once the link is open, starting or joining an attempt as needed -/
  | connect (call : CallId)
  /-- write or queue a payload -/
  | send (payload : Payload)
  /-- release the link and discard the queue -/
  | close (call : CallId)
  /-- let an observer see inbound messages from now on -/
  | addObserver (observer : ObserverId)
  /-- report the books -/
  | snapshot (query : QueryId)
  deriving DecidableEq, Repr, Inhabited

/-- A command without its payload and without who gave it. -/
inductive CommandOutline
  | connect
  | send (size : Nat)
  | close
  | addObserver
  | snapshot
  deriving DecidableEq, Repr, Inhabited

/-- Leaves out who gave a command and what it carries, apart from its size. -/
def Command.outline : Command → CommandOutline
  | connect _ => .connect
  | send payload => .send payload.size
  | close _ => .close
  | addObserver _ => .addObserver
  | snapshot _ => .snapshot

/-- How a command is shown. Of a payload only the size is ever shown. -/
def CommandOutline.text : CommandOutline → String
  | connect => "Connect"
  | send size => "Send \x7b len: " ++ toString size ++ " \x7d"
  | close => "Close"
  | addObserver => "AddObserver"
  | snapshot => "Snapshot"

/-- The books of a manager at one moment. -/
structure Snapshot where
  /-- where the connection stands -/
  phase : Phase
  /-- messages that wait for a link -/
  queued : Nat
  /-- observers of inbound messages -/
  observers : Nat
  /-- callers who wait for a connection -/
  waiters : Nat
  /-- number of attempts and resets so far -/
  generation : Nat
  deriving DecidableEq, Repr

end PersistentLink
