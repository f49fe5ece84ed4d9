import PersistentLink.Log

/-!
# Reading a link

A task of its own reads each open link and passes every event on to the manager, tagged with
the generation of the attempt that opened the link. It ends after it has passed on the close of
the link, or when it finds that nobody listens any more.

## Main definitions

- `LinkReader.pass`: what is done with one event that was read
- `LinkReader.run`: a whole run over the events that a link produces

## Design notes

A link that has produced all its events keeps its reader waiting. The last read is then begun
and never ends, so a run may stop without being finished.
-/

namespace PersistentLink.LinkReader

/-- What a reader does with one event. -/
structure Pass where
  /-- whether the event arrived -/
  delivered : Bool
  /-- whether the reader ends -/
  finished : Bool
  /-- what it logs -/
  log : List LogRecord
  deriving DecidableEq, Repr

/-- Passes an event on. The reader ends if nobody listens, or if the link has closed. -/
def pass (generation : Nat) (event : LinkEvent) (listening : Bool) : Pass where
  delivered := listening
  finished := !listening || event.isClosed
  log := .forwarding generation event.isClosed ::
    if listening then [] else [.readerOrphaned generation]

/-- How far a reader has come. -/
structure Progress where
  /-- the task has ended -/
  finished : Bool
  /-- reads begun -/
  reads : Nat
  /-- events that arrived, in order -/
  forwarded : List (Nat × LinkEvent)
  /-- what was logged -/
  log : List LogRecord
  deriving DecidableEq, Repr

/-- The reads of a reader from the given number on. -/
def runFrom (generation : Nat) (goneAt : Option Nat) (number : Nat) : List LinkEvent → Progress
  | [] => ⟨false, number + 1, [], []⟩
  | event :: rest =>
    let listening := goneAt.all (number < ·)
    let step := pass generation event listening
    let arrived := if step.delivered then [(generation, event)] else []
    if step.finished then ⟨true, number + 1, arrived, step.log⟩
    else
      let later := runFrom generation goneAt (number + 1) rest
      { later with forwarded := arrived ++ later.forwarded, log := step.log ++ later.log }

/-- A run over the events of a link. If a number is given, the listener goes away during the read
of that number, counted from zero, before the read ends. -/
def run (generation : Nat) (goneAt : Option Nat) (events : List LinkEvent) : Progress :=
  runFrom generation goneAt 0 events

end PersistentLink.LinkReader
