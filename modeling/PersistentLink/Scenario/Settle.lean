import PersistentLink.Scenario.World

/-!
# Running until nothing can proceed

All parties share one thread and take turns in the order in which they had reason to go on. In
its turn an attempt calls the transport or reports what came of the call, a reader passes on what
its link has yielded, and the manager works until it has nothing to do or waits for a call to a
writer. No turn takes more than its share of items.

## Main definitions

- `World.endOpen`: answers a call to the transport
- `World.turn`: the turn of a party
- `World.runLine`: turns until nobody stands in the line
- `World.settle`: turns until nothing can proceed
- `World.advance`: time passes

## Design notes

Every turn is a list of moves of the ensemble, and what comes of them is recorded: nothing here
changes the parties in any other way. The number of turns is bounded by a budget, which is computed
from the amount of work at hand and is not used up by it.
-/

namespace PersistentLink.Scenario.World

/-- So many items does a party take in one turn before it gives way to the others. -/
def turnShare : Nat := 128

/-- A party has used up its share. -/
def stepBack (w : World) (party : Party) : World :=
  { w with roster := w.roster.stepBack party }

/-! ## Attempts -/

/-- Takes the far side of a new link into the world. -/
def addPeer (w : World) (peer : Peer) : LinkId × World :=
  (w.peers.size, { w with peers := w.peers.push peer })

/-- What a call to the transport returns. A new link gets a far side. -/
def outcomeOf (w : World) (number : Nat) (ending : Ending) : Except Failure LinkId × World :=
  match ending with
  | .link behaviour held =>
    let (link, w) := w.addPeer { number, behaviour, held }
    (.ok link, w)
  | .webSocket client =>
    let (link, w) := w.addPeer { number, behaviour := {}, client }
    (.ok link, w)
  | .failure error => (.error error, w)

/-- The attempt that waits for the answer to a call to the transport. -/
def waitingAttempt (w : World) (number : Nat) : Option Attempt :=
  w.ensemble.attempts.find? (·.awaits number)

/-- Answers a call to the transport, and tells whether the attempt was still waiting. If it was, it
sees the answer in its next turn. -/
def endOpen (w : World) (number : Nat) (ending : Ending) : Bool × World :=
  let (result, w) := w.outcomeOf number ending
  match w.waitingAttempt number with
  | some attempt =>
    (true, (w.tryMove (.completeOpen number result)).join (.attempt attempt.generation))
  | none => (false, w)

/-- The next reply of the script. -/
def nextReply (w : World) : Reply × World :=
  match w.script with
  | [] => (w.otherwise, w)
  | reply :: rest => (reply, { w with script := rest })

/-- An attempt calls the transport. If the script says so, the call ends at once; an attempt that
may take no time is given up at once if it does not. -/
def callOpen (w : World) : Option World := do
  let number := w.ensemble.opens
  let (reply, w) := w.nextReply
  let held := match reply with
    | .held ending => if w.holding then some ending else none
    | _ => none
  let w ← w.perform (.callOpen held.isSome)
  let w :=
    { w with
      trace := w.trace.push (.opened number w.endpoint.url)
      answered := w.answered.push false
      heldOpens := w.heldOpens ++ (held.map fun ending => (number, ending)).toList }
  match reply, held with
  | .now ending, _ | .held ending, none =>
    let (result, w) := w.outcomeOf number ending
    w.perform (.answerOpen number result)
  | .panic, _ => w.perform (.collapseOpen number)
  | .later, _ | .held _, some _ => return w.tryMove (.expireOpen number)

/-- An attempt that has called the transport reports the answer. As long as there is none, it is
given up once it has taken too long. -/
def conclude (w : World) (attempt : Attempt) (number : Nat) : World :=
  match attempt.outcome with
  | some result => w.tryMove (.reportOpen number result)
  | none => w.tryMove (.expireOpen number)

/-- The turn of an attempt. One that was given up does nothing. -/
def attemptTurn (w : World) (generation : Nat) : World :=
  match w.ensemble.attempts.find? (·.generation == generation) with
  | none => w
  | some attempt =>
    match attempt.number with
    | none => w.callOpen.getD w
    | some number => w.conclude attempt number

/-! ## Readers -/

/-- A reader passes on what its link yields now, at most the given number of events. It reads
nothing after a close. -/
def readOn (link : LinkId) : Nat → World → World
  | 0, w => w.stepBack (.reader link)
  | share + 1, w =>
    match w.peers[link]? with
    | none => w
    | some peer =>
      let (event, log, peer) := peer.yield
      let w := { w with peers := w.peers.setIfInBounds link peer, log := w.log ++ log }
      match event with
      | none => w
      | some event =>
        match w.perform (.read link event) with
        | none => w
        | some w => if event.isClosed then w else readOn link share w

/-- The turn of a reader. A read whose event is held back cannot be interrupted, and one that was
given up does nothing else. -/
def readerTurn (w : World) (link : LinkId) : World :=
  if w.ensemble.readers.any (·.link == link) then
    match (w.peers[link]?).bind fun peer => peer.held.map (peer, ·) with
    | none => readOn link turnShare w
    | some (peer, event) =>
      if w.holding then w.tryMove (.pinReader link)
      else
        { w with peers := w.peers.setIfInBounds link { peer with held := none } }.tryMove
          (.read link event)
  else w

/-! ## The manager -/

/-- The call to a writer under way returns to the manager. -/
def returnCall (w : World) (result : Except Failure Unit) : Option World :=
  let w := { w with verdict := none }
  if w.ensemble.isWriting then w.perform (.written result) else w.perform (.closed result)

/-- The manager goes on after a call to a writer has ended or has taken too long, which may count
as an item of its turn. -/
def goOn (w : World) : Option (Nat × World) :=
  match w.verdict with
  | some (.returns result) => (w.returnCall result).map (0, ·)
  | some (.released link ok) =>
    let behaviour := ((w.peers[link]?).map (·.behaviour)).getD {}
    (w.returnCall (if ok then .ok () else .error behaviour.failure)).map (1, ·)
  | some .collapses => ({ w with verdict := none }.perform .collapse).map (0, ·)
  | none => ({ w with hanging := none }.perform .closeExpired).map (1, ·)

/-- The manager looks for a message. If there is none, it joins the line when one comes. -/
def lookInbox (w : World) : World :=
  { w with roster := { w.roster with
      heedsInbox := w.roster.heedsInbox || w.ensemble.inbox.isEmpty } }

/-- The manager has found no command either, and joins the line when one comes. -/
def awaitCommands (w : World) : World :=
  { w with roster := { w.roster with heedsCommands := true } }

/-- The turn of the manager: at most `moves` moves, of which at most `share` take an item. -/
def managerTurn : Nat → Nat → World → World
  | 0, _, w => w
  | moves + 1, share, w =>
    if w.ensemble.isBlocked then
      match w.goOn with
      | some (cost, w) => managerTurn moves (share - cost) w
      | none => w
    else if !w.ensemble.present then w
    else if share = 0 then w.stepBack .manager
    else
      let w := w.lookInbox
      match w.perform (.handle w.panicking) with
      | some w => managerTurn moves (share - 1) w
      | none => w.awaitCommands

/-! ## Turns -/

/-- More moves than the work at hand can take. Each item of work is a command, a message, a
queued payload or something that a peer sent. An item may be shown to every observer, each of
whom may give a command, and may be written once for every attempt that the script answers. -/
def budget (w : World) : Nat :=
  let items := w.ensemble.commands.length + w.ensemble.inbox.length +
    w.ensemble.manager.queue.length + w.peers.foldl (fun count peer => count + peer.backlog) 0
  16 * (items + 4) * (w.observers.size + 2) * (w.script.length + 4)

/-- The turn of a party. The manager may join the line again in its own turn, and does so behind
everybody who joined it in that turn. -/
def turn (w : World) (budget : Nat) : Party → World
  | .attempt generation => w.attemptTurn generation
  | .reader link => w.readerTurn link
  | .manager =>
    let w := managerTurn budget turnShare w
    { w with roster := w.roster.rejoin .manager }

/-- Turns until nobody stands in the line, at most the given number of them. -/
def runLine (budget : Nat) : Nat → World → World
  | 0, w => w
  | turns + 1, w =>
    match w.roster.line with
    | [] => w
    | party :: rest =>
      runLine budget turns ({ w with roster := { w.roster with line := rest } }.turn budget party)

/-- Runs until nothing can proceed, letting those who have stepped back in again at most the given
number of times. -/
def takeTurns (budget : Nat) : Nat → World → World
  | 0, w => w
  | rounds + 1, w =>
    let w := runLine budget budget w
    if w.roster.isQuiet then w
    else takeTurns budget rounds { w with roster := w.roster.readmit }

/-- Runs until nothing can proceed. -/
def settle (w : World) : World :=
  takeTurns w.budget w.budget w

/-! ## Time -/

/-- Those whose time is up join the line. -/
def ring (w : World) : World :=
  let due := w.ensemble.attempts.filter fun attempt =>
    attempt.number.isSome && w.ensemble.reached attempt.deadline
  let w := due.foldl (fun w attempt => w.join (.attempt attempt.generation)) w
  if w.ensemble.isClosing && w.ensemble.reached w.ensemble.closeDeadline then w.join .manager
  else w

/-- Time passes. Those who stand in the line take their turns before those whose time is up. -/
def advance (w : World) (span : Nat) : World :=
  let w := w.tryMove (.elapse span)
  let w := (runLine w.budget w.budget w).ring
  { w with roster := w.roster.readmit }

end PersistentLink.Scenario.World
