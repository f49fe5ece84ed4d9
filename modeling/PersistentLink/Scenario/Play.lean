import PersistentLink.Scenario.Settle

/-!
# Playing a scenario

A scenario is a list of steps of callers and of the transport's side. After each step the world
runs until nothing can proceed, and a report says what has come of the step.

## Main definitions

- `Step`: what callers and transport can do
- `Note`: what a step says by itself
- `World.apply`: carries out a step
- `Report`: what has come of a step
- `World.report`: the report, and the world with a clean slate
- `play`: the reports of a whole scenario
- `complaint?`: the first step of a scenario that could not be read
-/

namespace PersistentLink.Scenario

/-- What a step needs to be there. -/
inductive Subject
  | nobody
  /-- a handle that is held -/
  | handle (number : Nat)
  /-- a peer, the latest one if none is named -/
  | peer (number : Option Nat)
  /-- a peer that has not vanished -/
  | speaker (number : Option Nat)
  deriving Repr

/-- What callers and transport can do. Without a number, a step about a call to the transport
means the latest one not answered yet, and a step about a peer means the latest one. -/
inductive Step
  /-- a caller asks for the connection -/
  | connect (handle : Nat)
  /-- a caller asks for a reset -/
  | close (handle : Nat)
  /-- a caller who waits goes away -/
  | cancel (call : CallId)
  /-- a caller sends payloads -/
  | send (handle : Nat) (payloads : List Payload)
  /-- a caller registers an observer -/
  | observe (handle : Nat) (observer : Observer)
  /-- a handle is copied -/
  | clone (handle : Nat)
  /-- a handle is dropped -/
  | drop (handle : Nat)
  /-- the address behind a handle is asked for -/
  | endpoint (handle : Nat)
  /-- a caller subscribes to the events -/
  | subscribe (handle : Nat)
  /-- a subscriber receives what it can -/
  | receive (subscriber : Nat)
  /-- a call to the transport is answered with a link -/
  | accept (number : Option Nat) (behaviour : Behaviour)
  /-- a call to the transport is answered with a failure -/
  | reject (number : Option Nat) (error : Failure)
  /-- a call to the transport is never answered, and fails because of that -/
  | dropOpen (number : Option Nat)
  /-- a peer sends messages -/
  | push (peer : Option Nat) (payloads : List Payload)
  /-- a peer closes its link -/
  | peerClose (peer : Option Nat) (status : CloseStatus)
  /-- a peer vanishes -/
  | peerDrop (peer : Option Nat)
  /-- a peer changes its behaviour -/
  | adjust (peer : Option Nat) (change : Adjustment)
  /-- a call to a writer that hangs ends -/
  | release (peer : Option Nat) (ok : Bool)
  /-- time passes -/
  | advance (span : Nat)
  /-- nothing is done -/
  | nothing
  /-- several steps are taken before anything runs -/
  | batch (steps : List Step)
  /-- the script is broken here, which is noticed if the subject of the step is there -/
  | unreadable (subject : Subject) (complaint : String)
  deriving Repr

/-- What a step says by itself. -/
inductive Note
  /-- the step names something that does not exist -/
  | skipped
  /-- whether the attempt was still waiting for the answer -/
  | delivered (waiting : Bool)
  /-- what a subscriber received -/
  | received (items : List (Received LifecycleEvent))
  /-- the address behind a handle -/
  | endpoint (url : String)
  /-- the step cannot be read -/
  | unreadable (complaint : String)
  deriving Repr

namespace World

/-! ## Steps -/

/-- What a step leads to: a note if it has one to make, and the world after it. -/
abbrev Outcome := List Note × World

/-- A step that names something that does not exist. -/
def skip (w : World) : Outcome :=
  ([.skipped], w)

/-- The number of the peer that a step is about. -/
def peerNumber (w : World) (peer : Option Nat) : Option Nat :=
  let number := peer.getD (w.peers.size - 1)
  if number < w.peers.size then some number else none

/-- Whether the subject of a step is there. -/
def isThere (w : World) : Subject → Bool
  | .nobody => true
  | .handle number => w.handles[number]?.getD false
  | .peer number => (w.peerNumber number).isSome
  | .speaker number => ((w.peerNumber number).bind (w.peers[·]?)).any (!·.vanished)

/-- Carries out a step through a handle that is held. -/
def through (w : World) (handle : Nat) (act : Unit → Outcome) : Outcome :=
  if w.isThere (.handle handle) then act () else w.skip

/-- Issues a call. The caller looks for the answer at once, and finds one if the manager is gone. -/
def issue (w : World) (kind : CallKind) : World :=
  let call := w.calls.size
  let w := { w with calls := w.calls.push { kind } }.give
    (match kind with
      | .connect => .connect call
      | .close => .close call)
  { w with calls := w.calls.modify call Call.look }

/-- A caller who waits goes away. -/
def cancel (w : World) (call : CallId) : Outcome :=
  if (w.calls[call]?).any (·.isWaiting) then
    ([], { w with
      calls := w.calls.modify call fun c => { c with cancelled := true } }.detachIfUnheld)
  else w.skip

/-- A subscriber receives what it can. -/
def receive (w : World) (subscriber : Nat) : List (Received LifecycleEvent) × World :=
  match w.subscribers[subscriber]? with
  | none => ([], w)
  | some subscription =>
    let (items, subscription) := w.events.receive subscription w.isSilent
    (items, { w with subscribers := w.subscribers.setIfInBounds subscriber subscription })

/-- The number of the call to the transport that a step is about, unless a step has answered it
before. A call that the script has answered, or that nobody waits for any more, can be answered
too, to no effect. -/
def openNumber (w : World) (number : Option Nat) : Option Nat :=
  match number with
  | some number => if w.answered[number]? == some false then some number else none
  | none => (w.answered.toList.zipIdx.filter (!·.1)).getLast?.map (·.2)

/-- Answers a call to the transport, which may be noted. -/
def answerStep (w : World) (number : Option Nat) (ending : Ending) (noted : Bool) : Outcome :=
  match w.openNumber number with
  | none => w.skip
  | some number =>
    let (waiting, w) :=
      { w with answered := w.answered.setIfInBounds number true }.endOpen number ending
    (if noted then [.delivered waiting] else [], w)

/-- Carries out a step of a peer, and what it leads to for the link. -/
def byPeer (w : World) (peer : Option Nat) (act : Peer → Option Peer)
    (rest : World → LinkId → World) : Outcome :=
  match w.peerNumber peer with
  | none => w.skip
  | some number =>
    match (w.peers[number]?).bind act with
    | none => w.skip
    | some peer => ([], rest { w with peers := w.peers.setIfInBounds number peer } number)

/-- The reader of a link, if there is one, has something to read. -/
def stir (w : World) (link : LinkId) : World :=
  if w.ensemble.readers.any (·.link == link) then w.join (.reader link) else w

/-- Adds to what a peer has sent, unless it has vanished. -/
def sendEvents (events : List LinkEvent) (peer : Peer) : Option Peer :=
  if peer.vanished then none else some { peer with sent := peer.sent ++ events }

/-- A peer vanishes, unless it has done so before. -/
def vanish (peer : Peer) : Option Peer :=
  if peer.vanished then none else some { peer with vanished := true }

/-- A call to a writer that hangs ends. If its time has passed already, that has no effect. -/
def release (w : World) (peer : Option Nat) (ok : Bool) : Outcome :=
  match w.peerNumber peer with
  | none => w.skip
  | some number =>
    match w.peers[number]? with
    | none => w.skip
    | some peer =>
      if peer.gate then
        let w := { w with peers := w.peers.setIfInBounds number { peer with gate := false } }
        if w.hanging == some number then
          ([], { w with verdict := some (.released number ok), hanging := none }.join .manager)
        else ([], w)
      else w.skip

mutual

/-- Carries out a step, without running the world. -/
def apply (w : World) : Step → Outcome
  | .connect handle => w.through handle fun _ => ([], w.issue .connect)
  | .close handle => w.through handle fun _ => ([], w.issue .close)
  | .cancel call => w.cancel call
  | .send handle payloads =>
    w.through handle fun _ => ([], payloads.foldl (fun w payload => w.give (.send payload)) w)
  | .observe handle observer =>
    w.through handle fun _ =>
      let number := w.observers.size
      ([], { w with observers := w.observers.push observer }.give (.addObserver number))
  | .clone handle => w.through handle fun _ => ([], { w with handles := w.handles ++ [true] })
  | .drop handle =>
    w.through handle fun _ => ([], { w with handles := w.handles.set handle false }.detachIfUnheld)
  | .endpoint handle => w.through handle fun _ => ([.endpoint w.endpoint.url], w)
  | .subscribe handle =>
    w.through handle fun _ =>
      ([], { w with subscribers := w.subscribers.push w.events.subscribe })
  | .receive subscriber =>
    if subscriber < w.subscribers.size then
      let (items, w) := w.receive subscriber
      ([.received items], w)
    else w.skip
  | .accept number behaviour => w.answerStep number (.link behaviour none) true
  | .reject number error => w.answerStep number (.failure error) true
  | .dropOpen number => w.answerStep number (.failure .channelClosed) false
  | .push peer payloads => w.byPeer peer (sendEvents (payloads.map .message)) stir
  | .peerClose peer status => w.byPeer peer (sendEvents [.closed status]) stir
  | .peerDrop peer => w.byPeer peer vanish stir
  | .adjust peer change =>
    w.byPeer peer (fun peer => some { peer with behaviour := peer.behaviour.adjust change })
      fun w _ => w
  | .release peer ok => w.release peer ok
  | .advance span => ([], w.advance span)
  | .nothing => ([], w)
  | .batch steps => w.applyAll steps
  | .unreadable subject complaint =>
    if w.isThere subject then ([.unreadable complaint], w) else w.skip

/-- Carries out steps in order, without running the world. -/
def applyAll (w : World) : List Step → Outcome
  | [] => ([], w)
  | step :: rest =>
    let (notes, w) := w.apply step
    let (more, w) := w.applyAll rest
    (notes ++ more, w)

end

end World

/-! ## Reports -/

/-- What a request for the books leads to. -/
inductive Books
  /-- the books -/
  | known (snapshot : Snapshot)
  /-- the manager does not answer -/
  | blocked
  /-- nobody holds a handle to ask through -/
  | noHandle
  /-- the manager is gone -/
  | failed (error : Failure)
  deriving Repr

/-- An answered call. -/
structure Resolution where
  call : CallId
  kind : CallKind
  result : Except Failure Unit
  deriving Repr

/-- What has come of a step. -/
structure Report where
  /-- the phase that handles show -/
  phase : Phase
  /-- whether a phase was published; nothing if the manager is gone -/
  changed : Option Bool
  books : Books
  events : List (Received LifecycleEvent)
  resolved : List Resolution
  trace : List Trace
  notes : List Note
  log : List LogRecord
  deriving Repr

namespace World

/-- Asks for the books. The request is a command like any other, so if the manager does not answer
it stays in the queue. -/
def askBooks (w : World) : Books × World :=
  if !w.handles.any id then (.noHandle, w)
  else if !w.ensemble.present then (.failed .channelClosed, w)
  else
    let query := w.queries
    let w := ({ w with queries := query + 1 }.give (.snapshot query)).settle
    let answer := w.books.filter (·.1 == query)
    match answer with
    | some (_, snapshot) => (.known snapshot, w)
    | none => (if w.ensemble.present then .blocked else .failed .channelClosed, w)

/-- The answers that were not reported yet. -/
def newAnswers (w : World) : List Resolution :=
  w.calls.toList.zipIdx.filterMap fun (call, number) =>
    if call.isNews then call.answer.map (⟨number, call.kind, ·⟩) else none

/-- Reports what has come of a step, after which the world has run. The callers have seen the
answers by the time the events are received. -/
def report (w : World) (notes : List Note) : Report × World :=
  let (books, w) := w.askBooks
  let resolved := w.newAnswers
  let (events, w) := w.acknowledge.receive 0
  let report : Report :=
    { phase := w.phase
      changed := if w.ensemble.present then some w.changed else none
      books
      events
      resolved
      trace := w.trace.toList
      notes
      log := w.log.toList }
  (report, { w with changed := false, trace := #[], log := #[] })

/-- Takes a step, runs the world and reports what has come of it. -/
def step (w : World) (step : Step) : Report × World :=
  let (notes, w) := w.apply step
  w.settle.report notes

/-- Takes steps in order. -/
def steps (w : World) : List Step → List Report
  | [] => []
  | step :: rest =>
    let (report, w) := w.step step
    report :: w.steps rest

end World

/-- The reports of a scenario: one before the first step, and one for each step. -/
def play (w : World) (steps : List Step) : Report × List Report :=
  let (first, w) := w.settle.report []
  (first, w.steps steps)

/-- What was noticed first of the steps that cannot be read. -/
def complaint? (reports : List Report) : Option String :=
  reports.findSome? fun report =>
    report.notes.findSome? fun
      | .unreadable complaint => some complaint
      | _ => none

end PersistentLink.Scenario
