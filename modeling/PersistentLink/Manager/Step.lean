import PersistentLink.Manager.Basic

/-!
# What a manager does with an input

The handlers of a manager, from the small ones to `Manager.step`, which takes any input in any
state of the books. An input that does not fit what is under way changes nothing.

## Main definitions

- `Manager.release`: gives up the held link, then goes on
- `Manager.drain`: writes the queue in order
- `Manager.handleCommand`, `Manager.attemptSucceeded`, `Manager.attemptFailed`,
  `Manager.linkReported`: the handlers
- `Manager.step`: one input
- `Manager.run`: a list of inputs

## Design notes

At most one link is held. A link is given up before the phase changes, so that by the time a
change is published the old writer has been closed or its time has passed.
-/

namespace PersistentLink.Manager

/-! ## Going on after a close -/

/-- Starts an attempt under the next generation. -/
def beginAttempt (m : Manager) (trigger : Trigger) : Reaction :=
  let generation := m.generation + 1
  ({ m with generation, trigger, phase := .connecting, attempting := true, activity := .ready },
    transition m.phase .connecting ++
      [.log (.opening generation m.url trigger), .emit (.connecting generation trigger),
        .startAttempt generation])

/-- The link is gone: the connection is down. If the queue was being written, the callers who
waited for the link are told that it was closed. -/
def settleLost (m : Manager) (error : Failure) (draining : Bool) : Reaction :=
  ({ m with
      phase := .down
      waiters := if draining then [] else m.waiters
      activity := .ready },
    transition m.phase .down ++
      .emit (.closed m.generation (.abnormal error.message)) ::
        if draining then answerAll m.waiters (.error .connectionClosed) else [])

/-- The peer closed the link: the connection is down. -/
def settleClosed (m : Manager) (status : CloseStatus) : Reaction :=
  ({ m with phase := .down, activity := .ready },
    transition m.phase .down ++
      [.log (.linkClosed m.generation status), .emit (.closed m.generation status)])

/-- Forgets the queue and the callers who wait, under the next generation. -/
def settleReset (m : Manager) (activity : Activity) : Reaction :=
  ({ m with
      phase := .idle
      generation := m.generation + 1
      queue := []
      waiters := []
      activity },
    answerAll m.waiters (.error .aborted) ++ transition m.phase .idle ++
      [.log (.reset m.queue.length), .emit (.reset m.queue.length)])

/-- Does what was left to do. -/
def resume (m : Manager) : Resume → Reaction
  | .linkLost error draining => m.settleLost error draining
  | .linkClosed status => m.settleClosed status
  | .reset call =>
    let (m, effects) := m.settleReset .ready
    (m, effects ++ [.answer call (.ok ())])
  | .shutdown => m.settleReset .ended
  | .attempt trigger => m.beginAttempt trigger
  | .nothing => ({ m with activity := .ready }, [])

/-- Gives up the reader and closes the writer, if they are held, and then goes on. -/
def release (m : Manager) (rest : Resume) : Reaction :=
  let stop : List Effect := if m.reader.isSome then [.abandonReader] else []
  match m.writer with
  | some link =>
    ({ m with reader := none, writer := none, activity := .closing m.generation rest },
      stop ++ [.close link])
  | none => ({ m with reader := none }.resume rest).after stop

/-- The record of a close. -/
def closeRecord (generation : Nat) : CloseOutcome → LogRecord
  | .done => .linkReleased generation
  | .failed error => .releaseFailed generation error.message
  | .timedOut => .releaseTimedOut generation

/-! ## Writing -/

/-- A write failed: the link counts as lost. -/
def writeFailed (m : Manager) (error : Failure) (draining : Bool) : Reaction :=
  (m.release (.linkLost error draining)).after
    [.log (.writeFailed m.generation error.message m.queue.length)]

/-- Writes the queue in order, `flushed` payloads of it being done. Once it is empty, the link
is announced and the callers who wait are answered. -/
def drain (m : Manager) (flushed : Nat) : Reaction :=
  match m.queue with
  | [] =>
    ({ m with waiters := [], activity := .ready },
      .log (.flushed m.generation flushed) :: .emit (.opened m.generation flushed) ::
        answerAll m.waiters (.ok ()))
  | payload :: rest =>
    match m.writer with
    | some link =>
      ({ m with queue := rest, activity := .draining payload flushed }, [.write link payload])
    | none => m.writeFailed .connectionClosed true

/-- Writes a single payload. -/
def writeNow (m : Manager) (payload : Payload) : Reaction :=
  match m.writer with
  | some link => ({ m with activity := .writing payload }, [.write link payload])
  | none =>
    { m with queue := payload :: m.queue }.writeFailed .connectionClosed false

/-! ## Commands -/

/-- Asks for the connection: answered at once if it stands, else as the attempt ends, which is
started unless one is in flight. -/
def connect (m : Manager) (call : CallId) : Reaction :=
  if m.phase = .live then (m, [.answer call (.ok ())])
  else
    let joined := !m.phase.mayStartAttempt
    let m := { m with waiters := m.waiters ++ [⟨call, joined, false⟩] }
    if joined then (m, []) else m.release (.attempt .caller)

/-- Writes a payload over the open link, or queues it and sees to it that an attempt is made. -/
def send (m : Manager) (payload : Payload) : Reaction :=
  if m.phase.queuesOutbound then
    let m := { m with queue := m.queue ++ [payload] }
    if m.phase.mayStartAttempt then
      (m.release (.attempt .send)).after [.log (.queuedAndReconnecting m.queue.length)]
    else (m, [.log (.queuedWhileConnecting m.queue.length)])
  else m.writeNow payload

/-- Releases the attempt and the link and goes on. -/
def reset (m : Manager) (rest : Resume) : Reaction :=
  ({ m with attempting := false }.release rest).after
    (if m.attempting then [.abandonAttempt] else [])

/-- Does what a command asks for. -/
def serve (m : Manager) : Command → Reaction
  | .connect call => m.connect call
  | .send payload => m.send payload
  | .close call => m.reset (.reset call)
  | .addObserver observer => ({ m with observers := m.observers ++ [observer] }, [])
  | .snapshot query => (m, [.report query m.snapshot])

/-- Handles a command, which is logged first. -/
def handleCommand (m : Manager) (command : Command) : Reaction :=
  (m.serve command).after [.log (.handling command.outline m.phase)]

/-! ## Attempts -/

/-- The attempt has opened a link, over which the queue is now written. -/
def attemptSucceeded (m : Manager) (link : LinkId) : Reaction :=
  let announced : List Effect :=
    .startReader link m.generation :: transition m.phase .live ++
      [.log (.opened m.generation m.queue.length)]
  ({ m with writer := some link, reader := some link, phase := .live }.drain 0).after announced

/-- Whether a failed attempt is made once more for a caller. -/
def Waiter.isCarriedOver (waiter : Waiter) : Bool :=
  waiter.joined && !waiter.retried

/-- The record of a failed attempt. -/
def failureRecord (m : Manager) (error : Failure) : LogRecord :=
  match m.trigger with
  | .send => .reconnectFailed m.generation error.message m.queue.length
  | .caller | .retry => .attemptFailed m.generation error.message m.queue.length m.trigger

/-- The attempt has failed. Callers who had joined it are carried over to one more attempt,
once; the others are told why it failed. -/
def attemptFailed (m : Manager) (error : Failure) : Reaction :=
  let (carried, failed) := m.waiters.partition Waiter.isCarriedOver
  let told :=
    transition m.phase .down ++
      [.log (m.failureRecord error),
        .emit (.connectFailed m.generation m.trigger error.message)] ++
      answerAll failed (.error (.connectFailed error))
  let m := { m with phase := .down, waiters := carried.map ({ · with retried := true }) }
  if carried.isEmpty then (m, told)
  else
    (m.release (.attempt .retry)).after
      (told ++ [.log (.retrying m.generation carried.length)])

/-- Handles the end of an attempt. A result that no attempt in flight can have produced is late;
a link that comes with it is closed. -/
def attemptFinished (m : Manager) (generation : Nat) (result : Except Failure LinkId) : Reaction :=
  if generation = m.generation ∧ m.phase = .connecting then
    let m := { m with attempting := false }
    match result with
    | .ok link => m.attemptSucceeded link
    | .error error => m.attemptFailed error
  else
    let late := .log (.staleAttempt generation m.generation)
    match result with
    | .ok link => ({ m with activity := .closing generation .nothing }, [late, .close link])
    | .error _ => (m, [late])

/-! ## Inbound events -/

/-- Shows a message to every observer in order of registration, whichever of them fail. -/
def dispatch (m : Manager) (payload : Payload) (panicking : List ObserverId) : List Effect :=
  .log (.dispatching payload.size m.observers.length) ::
    m.observers.zipIdx.flatMap fun (observer, index) =>
      .observe observer payload ::
        if observer ∈ panicking then [.log (.observerPanicked index)] else []

/-- Handles the close of a link. A link that is down already has been dealt with. -/
def linkClosed (m : Manager) (status : CloseStatus) : Reaction :=
  if m.phase = .live then { m with reader := none }.release (.linkClosed status)
  else (m, [.log (.closeIgnored status.code m.phase)])

/-- Handles an event of a link. An event of an earlier generation is dropped. -/
def linkReported (m : Manager) (generation : Nat) (event : LinkEvent)
    (panicking : List ObserverId) : Reaction :=
  if generation = m.generation then
    match event with
    | .message payload => (m, m.dispatch payload panicking)
    | .closed status => m.linkClosed status
  else (m, [.log (.staleLinkEvent generation m.generation)])

/-! ## Inputs -/

/-- Handles an input that comes while nothing is under way. -/
def receive (m : Manager) : Input → Reaction
  | .command command => m.handleCommand command
  | .attemptFinished generation result => m.attemptFinished generation result
  | .linkEvent generation event panicking => m.linkReported generation event panicking
  | .commandsEnded => (m.reset .shutdown).after [.log .shuttingDown]
  | .written _ | .closed _ => (m, [])

/-- Handles any input. -/
def step (m : Manager) (input : Input) : Reaction :=
  match m.activity, input with
  | .ready, input => m.receive input
  | .writing _, .written (.ok _) => ({ m with activity := .ready }, [])
  | .writing payload, .written (.error error) =>
    { m with queue := payload :: m.queue, activity := .ready }.writeFailed error false
  | .draining _ flushed, .written (.ok _) => { m with activity := .ready }.drain (flushed + 1)
  | .draining payload _, .written (.error error) =>
    { m with queue := payload :: m.queue, activity := .ready }.writeFailed error true
  | .closing generation rest, .closed outcome =>
    (m.resume rest).after [.log (closeRecord generation outcome)]
  | _, _ => (m, [])

/-- Handles inputs in order. -/
def run (m : Manager) (inputs : List Input) : Reaction :=
  inputs.foldl (fun reaction input => reaction.andThen (step · input)) (m, [])

end PersistentLink.Manager
