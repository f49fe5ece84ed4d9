import PersistentLink.Proofs.Manager.Run

/-!
# The books of a manager

A manager keeps its books in several fields, which its handlers change one after another. Between
two inputs the books are settled: which of the fields are filled is a matter of the phase alone.
While an input is handled they are not, and what holds instead depends on what is under way.

## Main definitions

- `Lineup`: how the callers stand in line for an attempt
- `Manager.Settled`: the books between two inputs
- `Manager.Sound`: the books at any moment
- `Manager.Turn`: all that a manager with sound books does with an input, case by case

## Main results

- `Manager.Sound.turn`: a step is one of the cases
- `Manager.Sound.step`, `Manager.sound_run`: the books stay sound
- `Manager.books_settled`: between two inputs the books are settled, and no handler is ever called
  without the writer it needs

## Design notes

Every property of runs is proved by cases on `Manager.Turn`. The handlers themselves are opened
only here, in the proof that there are no other cases.
-/

namespace PersistentLink

/-! ## The line of callers -/

namespace Waiter

/-- A caller who asked for the attempt. -/
def initiator (call : CallId) : Waiter :=
  ⟨call, false, false⟩

/-- A caller who had joined an attempt that failed. -/
def carried (call : CallId) : Waiter :=
  ⟨call, true, true⟩

/-- A caller who came while the attempt was in flight. -/
def joiner (call : CallId) : Waiter :=
  ⟨call, true, false⟩

end Waiter

/-- How callers stand in line for an attempt: the one who asked for it, if a caller did; those who
were carried over to it, if it is a retry, and then at least one; and those who joined it. -/
def Lineup (trigger : Trigger) (waiters : List Waiter) : Prop :=
  ∃ (initiator : Option CallId) (carried joined : List CallId),
    waiters = initiator.toList.map .initiator ++ carried.map .carried ++ joined.map .joiner ∧
      (initiator.isSome = true ↔ trigger = .caller) ∧ (carried ≠ [] ↔ trigger = .retry)

namespace Lineup

theorem caller (call : CallId) : Lineup .caller [.initiator call] :=
  ⟨some call, [], [], rfl, by simp, by simp⟩

theorem send : Lineup .send [] :=
  ⟨none, [], [], rfl, by simp, by simp⟩

theorem retry {calls : List CallId} (h : calls ≠ []) : Lineup .retry (calls.map .carried) :=
  ⟨none, calls, [], by simp, by simp, by simpa using h⟩

/-- A caller who joins goes to the end of the line. -/
theorem join {trigger : Trigger} {waiters : List Waiter} (h : Lineup trigger waiters)
    (call : CallId) : Lineup trigger (waiters ++ [.joiner call]) := by
  obtain ⟨initiator, carried, joined, rfl, hinitiator, hcarried⟩ := h
  exact ⟨initiator, carried, joined ++ [call], by simp, hinitiator, hcarried⟩

end Lineup

namespace Manager

open Effect

/-! ## Books in order -/

/-- The books between two inputs. -/
structure Settled (m : Manager) : Prop where
  /-- a writer is held if and only if the connection is live -/
  writer_isSome : m.writer.isSome = true ↔ m.phase = .live
  /-- the link that is read is the one whose writer is held -/
  reader_eq : m.reader = m.writer
  /-- an attempt task is held if and only if an attempt is in flight -/
  attempting_iff : m.attempting = true ↔ m.phase = .connecting
  /-- callers wait for an attempt in flight and for nothing else -/
  waiters_eq : m.phase ≠ .connecting → m.waiters = []
  /-- the callers stand in line for the attempt -/
  lineup : m.phase = .connecting → Lineup m.trigger m.waiters
  /-- the queue has been written, or was never needed -/
  queue_eq : m.phase = .live ∨ m.phase = .idle → m.queue = []

/-- The books while the queue is written to a new link: the callers are still in line. -/
structure Linked (m : Manager) : Prop where
  phase_eq : m.phase = .live
  writer_isSome : m.writer.isSome = true
  reader_eq : m.reader = m.writer
  attempting_eq : m.attempting = false
  lineup : Lineup m.trigger m.waiters

/-- The books that fit what is left to do once the writer of a lost link has been closed. Callers
still wait only if the queue was being written. -/
def LeftFor (m : Manager) : Resume → Prop
  | .linkLost _ true => Lineup m.trigger m.waiters
  | .linkLost _ false => m.waiters = []
  | .linkClosed _ | .reset _ | .shutdown => m.waiters = [] ∧ m.queue = []
  | .attempt _ | .nothing => False

/-- The books while the writer of a link that was given up is being closed. -/
structure Severed (m : Manager) (rest : Resume) : Prop where
  phase_eq : m.phase = .live
  writer_eq : m.writer = none
  reader_eq : m.reader = none
  attempting_eq : m.attempting = false
  leftFor : m.LeftFor rest

/-- The books at any moment. -/
def Sound (m : Manager) : Prop :=
  match m.activity with
  | .ready | .closing _ .nothing => m.Settled
  | .writing _ => m.Settled ∧ m.phase = .live
  | .draining .. => m.Linked
  | .closing generation rest => generation = m.generation ∧ m.Severed rest
  | .ended => m.Settled ∧ m.phase = .idle

/-! ## The cases of a step -/

/-- Whether an input fits what is under way. -/
def fits (m : Manager) (input : Input) : Bool :=
  match m.activity, input with
  | .ready, .written _ | .ready, .closed _ => false
  | .ready, _ => true
  | .writing _, .written _ | .draining .., .written _ | .closing .., .closed _ => true
  | _, _ => false

/-- Inputs that release everything, the record they are logged with, and what is to be done once
the link is released. -/
inductive Dismissal (m : Manager) : Input → LogRecord → Resume → Prop
  | close (call : CallId) :
    Dismissal m (.command (.close call)) (.handling .close m.phase) (.reset call)
  | shutdown : Dismissal m .commandsEnded .shuttingDown .shutdown

/-- The callers for whom a failed attempt is not made again. -/
def turnedAway (m : Manager) : List Waiter :=
  m.waiters.filter fun waiter => !Waiter.isCarriedOver waiter

/-- The callers who are carried over when an attempt fails, as they wait for the next one. -/
def carriedOver (m : Manager) : List Waiter :=
  (m.waiters.filter Waiter.isCarriedOver).map ({ · with retried := true })

/-- What is done when an attempt fails, before it is made again. -/
def failureNotice (m : Manager) (error : Failure) : List Effect :=
  transition m.phase .down ++
    [.log (m.failureRecord error), .emit (.connectFailed m.generation m.trigger error.message)] ++
    answerAll m.turnedAway (.error (.connectFailed error))

@[simp]
theorem seen_failureNotice {β : Type} {view : Effect → Option β} (m : Manager) (error : Failure) :
    seen view (m.failureNotice error) =
      seen view (transition m.phase .down) ++
        seen view [.log (m.failureRecord error),
          .emit (.connectFailed m.generation m.trigger error.message)] ++
        seen view (answerAll m.turnedAway (.error (.connectFailed error))) := by
  rw [failureNotice, seen_append, seen_append]

/-- What a manager with sound books does with an input. -/
inductive Turn (m : Manager) : Input → Reaction → Prop
  -- a caller asks for a connection that stands
  | welcomed (call : CallId) (ready : m.activity = .ready) (live : m.phase = .live) :
    Turn m (.command (.connect call))
      (m, [.log (.handling .connect m.phase), .answer call (.ok ())])
  -- a caller joins the attempt in flight
  | joined (call : CallId) (ready : m.activity = .ready) (connecting : m.phase = .connecting) :
    Turn m (.command (.connect call))
      ({ m with waiters := m.waiters ++ [.joiner call] }, [.log (.handling .connect m.phase)])
  -- a caller asks for a connection, and an attempt starts
  | called (call : CallId) (ready : m.activity = .ready) (free : m.phase.mayStartAttempt = true) :
    Turn m (.command (.connect call))
      ((beginAttempt { m with waiters := [.initiator call] } .caller).after
        [.log (.handling .connect m.phase)])
  -- a payload is handed to the writer
  | handedOver (payload : Payload) (link : LinkId) (ready : m.activity = .ready)
      (live : m.phase = .live) (held : m.writer = some link) :
    Turn m (.command (.send payload))
      ({ m with activity := .writing payload },
        [.log (.handling (.send payload.size) m.phase), .write link payload])
  -- a payload is queued for the attempt in flight
  | queued (payload : Payload) (ready : m.activity = .ready)
      (connecting : m.phase = .connecting) :
    Turn m (.command (.send payload))
      ({ m with queue := m.queue ++ [payload] },
        [.log (.handling (.send payload.size) m.phase),
          .log (.queuedWhileConnecting (m.queue ++ [payload]).length)])
  -- a payload is queued, and an attempt starts because of it
  | summoned (payload : Payload) (ready : m.activity = .ready)
      (free : m.phase.mayStartAttempt = true) :
    Turn m (.command (.send payload))
      ((beginAttempt { m with queue := m.queue ++ [payload] } .send).after
        [.log (.handling (.send payload.size) m.phase),
          .log (.queuedAndReconnecting (m.queue ++ [payload]).length)])
  -- an observer is registered
  | registered (observer : ObserverId) (ready : m.activity = .ready) :
    Turn m (.command (.addObserver observer))
      ({ m with observers := m.observers ++ [observer] },
        [.log (.handling .addObserver m.phase)])
  -- the books are reported
  | reported (query : QueryId) (ready : m.activity = .ready) :
    Turn m (.command (.snapshot query))
      (m, [.log (.handling .snapshot m.phase), .report query m.snapshot])
  -- all is to be released, the link first
  | dismissing {input : Input} {record : LogRecord} {rest : Resume}
      (order : Dismissal m input record rest) (link : LinkId) (ready : m.activity = .ready)
      (live : m.phase = .live) (held : m.writer = some link) :
    Turn m input
      ({ m with reader := none, writer := none, activity := .closing m.generation rest },
        [.log record, .abandonReader, .close link])
  -- all is released, and there was no link
  | dismissed {input : Input} {record : LogRecord} {rest : Resume}
      (order : Dismissal m input record rest) (ready : m.activity = .ready)
      (unlinked : m.phase ≠ .live) :
    Turn m input
      (({ m with attempting := false }.resume rest).after
        (.log record :: if m.attempting then [.abandonAttempt] else []))
  -- the result of an earlier attempt is a link, which is closed
  | staleSuccess (generation : Nat) (link : LinkId) (ready : m.activity = .ready)
      (stale : ¬(generation = m.generation ∧ m.phase = .connecting)) :
    Turn m (.attemptFinished generation (.ok link))
      ({ m with activity := .closing generation .nothing },
        [.log (.staleAttempt generation m.generation), .close link])
  -- the result of an earlier attempt is a failure
  | staleFailure (generation : Nat) (error : Failure) (ready : m.activity = .ready)
      (stale : ¬(generation = m.generation ∧ m.phase = .connecting)) :
    Turn m (.attemptFinished generation (.error error))
      (m, [.log (.staleAttempt generation m.generation)])
  -- the attempt has opened a link, and nothing is queued for it
  | opened (link : LinkId) (ready : m.activity = .ready) (connecting : m.phase = .connecting)
      (empty : m.queue = []) :
    Turn m (.attemptFinished m.generation (.ok link))
      ({ m with
          attempting := false, writer := some link, reader := some link, phase := .live
          waiters := [] },
        .startReader link m.generation :: transition m.phase .live ++
          [.log (.opened m.generation 0), .log (.flushed m.generation 0),
            .emit (.opened m.generation 0)] ++ answerAll m.waiters (.ok ()))
  -- the attempt has opened a link, and the first payload is handed to its writer
  | openedDraining (link : LinkId) (payload : Payload) (rest : List Payload)
      (ready : m.activity = .ready) (connecting : m.phase = .connecting)
      (nonempty : m.queue = payload :: rest) :
    Turn m (.attemptFinished m.generation (.ok link))
      ({ m with
          attempting := false, writer := some link, reader := some link, phase := .live
          queue := rest, activity := .draining payload 0 },
        .startReader link m.generation :: transition m.phase .live ++
          [.log (.opened m.generation m.queue.length), .write link payload])
  -- the attempt has failed, and is made for nobody again
  | failed (error : Failure) (ready : m.activity = .ready) (connecting : m.phase = .connecting)
      (nobody : m.carriedOver = []) :
    Turn m (.attemptFinished m.generation (.error error))
      ({ m with attempting := false, phase := .down, waiters := [] }, m.failureNotice error)
  -- the attempt has failed, and is made once more for those who had joined it
  | failedRetrying (error : Failure) (ready : m.activity = .ready)
      (connecting : m.phase = .connecting) (somebody : m.carriedOver ≠ []) :
    Turn m (.attemptFinished m.generation (.error error))
      ((beginAttempt { m with phase := .down, waiters := m.carriedOver } .retry).after
        (m.failureNotice error ++ [.log (.retrying m.generation m.carriedOver.length)]))
  -- a message is shown to the observers
  | received (payload : Payload) (panicking : List ObserverId) (ready : m.activity = .ready) :
    Turn m (.linkEvent m.generation (.message payload) panicking)
      (m, m.dispatch payload panicking)
  -- the peer has closed the link
  | peerClosed (status : CloseStatus) (panicking : List ObserverId) (link : LinkId)
      (ready : m.activity = .ready) (live : m.phase = .live) (held : m.writer = some link) :
    Turn m (.linkEvent m.generation (.closed status) panicking)
      ({ m with
          reader := none, writer := none
          activity := .closing m.generation (.linkClosed status) }, [.close link])
  -- a link that was given up has closed
  | alreadyDown (status : CloseStatus) (panicking : List ObserverId) (ready : m.activity = .ready)
      (unlinked : m.phase ≠ .live) :
    Turn m (.linkEvent m.generation (.closed status) panicking)
      (m, [.log (.closeIgnored status.code m.phase)])
  -- an event comes from an earlier link
  | staleEvent (generation : Nat) (event : LinkEvent) (panicking : List ObserverId)
      (ready : m.activity = .ready) (stale : generation ≠ m.generation) :
    Turn m (.linkEvent generation event panicking)
      (m, [.log (.staleLinkEvent generation m.generation)])
  -- a single payload has been written
  | wrote (payload : Payload) (busy : m.activity = .writing payload) :
    Turn m (.written (.ok ())) ({ m with activity := .ready }, [])
  -- a single payload could not be written
  | writeLost (payload : Payload) (error : Failure) (link : LinkId)
      (busy : m.activity = .writing payload) (held : m.writer = some link) :
    Turn m (.written (.error error))
      ({ m with
          queue := payload :: m.queue, reader := none, writer := none
          activity := .closing m.generation (.linkLost error false) },
        [.log (.writeFailed m.generation error.message (payload :: m.queue).length),
          .abandonReader, .close link])
  -- the last payload of the queue has been written
  | drained (payload : Payload) (flushed : Nat) (busy : m.activity = .draining payload flushed)
      (empty : m.queue = []) :
    Turn m (.written (.ok ()))
      ({ m with waiters := [], activity := .ready },
        .log (.flushed m.generation (flushed + 1)) ::
          .emit (.opened m.generation (flushed + 1)) :: answerAll m.waiters (.ok ()))
  -- a payload of the queue has been written, and the next one is handed to the writer
  | drainedOne (payload next : Payload) (rest : List Payload) (flushed : Nat) (link : LinkId)
      (busy : m.activity = .draining payload flushed) (nonempty : m.queue = next :: rest)
      (held : m.writer = some link) :
    Turn m (.written (.ok ()))
      ({ m with queue := rest, activity := .draining next (flushed + 1) }, [.write link next])
  -- a payload of the queue could not be written
  | drainLost (payload : Payload) (flushed : Nat) (error : Failure) (link : LinkId)
      (busy : m.activity = .draining payload flushed) (held : m.writer = some link) :
    Turn m (.written (.error error))
      ({ m with
          queue := payload :: m.queue, reader := none, writer := none
          activity := .closing m.generation (.linkLost error true) },
        [.log (.writeFailed m.generation error.message (payload :: m.queue).length),
          .abandonReader, .close link])
  -- a writer has been closed, and what was left to do is done
  | released (generation : Nat) (rest : Resume) (outcome : CloseOutcome)
      (busy : m.activity = .closing generation rest) :
    Turn m (.closed outcome) ((m.resume rest).after [.log (closeRecord generation outcome)])
  -- the input does not fit what is under way
  | ignored (input : Input) (stray : m.fits input = false) : Turn m input (m, [])

/-! ## There are no other cases -/

variable {m : Manager}

/-- An input that does not fit what is under way changes nothing, so it handles no command. -/
theorem step_of_stray {input : Input} (stray : m.fits input = false) : m.step input = (m, []) := by
  cases activity : m.activity <;> cases input <;> simp_all [fits, step, receive]

theorem heard_of_stray {input : Input} (stray : m.fits input = false) : m.heard input = none := by
  rw [Option.eq_none_iff_forall_not_mem]
  intro command hheard
  obtain ⟨ready, rfl⟩ := m.heard_eq_some.mp hheard
  simp [fits, ready] at stray

theorem Sound.settled (h : m.Sound) (ready : m.activity = .ready) : m.Settled := by
  simpa only [Sound, ready] using h

/-- A manager with settled books holds a link exactly if the connection is live. -/
theorem Settled.held (h : m.Settled) (live : m.phase = .live) :
    ∃ link, m.writer = some link ∧ m.reader = some link := by
  obtain ⟨link, hlink⟩ := Option.isSome_iff_exists.mp (h.writer_isSome.mpr live)
  exact ⟨link, hlink, h.reader_eq.trans hlink⟩

theorem Settled.unlinked (h : m.Settled) (hphase : m.phase ≠ .live) :
    m.writer = none ∧ m.reader = none := by
  have hwriter : m.writer = none := by
    rw [← Option.not_isSome_iff_eq_none, h.writer_isSome]
    exact hphase
  exact ⟨hwriter, h.reader_eq.trans hwriter⟩

/-! ### Handlers with and without a link -/

theorem release_unlinked (hwriter : m.writer = none) (hreader : m.reader = none) (rest : Resume) :
    m.release rest = m.resume rest := by
  cases m
  subst hwriter hreader
  rfl

theorem release_linked {link : LinkId} (hwriter : m.writer = some link)
    (hreader : m.reader = some link) (rest : Resume) :
    m.release rest =
      ({ m with reader := none, writer := none, activity := .closing m.generation rest },
        [.abandonReader, .close link]) := by
  cases m
  subst hwriter hreader
  rfl

theorem release_unread {link : LinkId} (hwriter : m.writer = some link) (rest : Resume) :
    { m with reader := none }.release rest =
      ({ m with reader := none, writer := none, activity := .closing m.generation rest },
        [.close link]) := by
  cases m
  subst hwriter
  rfl

theorem reset_linked {link : LinkId} (hwriter : m.writer = some link)
    (hreader : m.reader = some link) (hattempting : m.attempting = false) (rest : Resume) :
    m.reset rest =
      ({ m with reader := none, writer := none, activity := .closing m.generation rest },
        [.abandonReader, .close link]) := by
  cases m
  subst hwriter hreader hattempting
  rfl

theorem writeNow_linked {link : LinkId} (hwriter : m.writer = some link) (payload : Payload) :
    m.writeNow payload = ({ m with activity := .writing payload }, [.write link payload]) := by
  cases m
  subst hwriter
  rfl

theorem writeFailed_linked {link : LinkId} (hwriter : m.writer = some link)
    (hreader : m.reader = some link) (error : Failure) (draining : Bool) :
    m.writeFailed error draining =
      ({ m with
          reader := none, writer := none
          activity := .closing m.generation (.linkLost error draining) },
        [.log (.writeFailed m.generation error.message m.queue.length), .abandonReader,
          .close link]) := by
  rw [writeFailed, release_linked hwriter hreader]
  rfl

theorem drain_cons {link : LinkId} {payload : Payload} {rest : List Payload}
    (hqueue : m.queue = payload :: rest) (hwriter : m.writer = some link) (flushed : Nat) :
    m.drain flushed =
      ({ m with queue := rest, activity := .draining payload flushed },
        [.write link payload]) := by
  cases m
  subst hqueue hwriter
  rfl

theorem drain_nil (hqueue : m.queue = []) (flushed : Nat) :
    m.drain flushed =
      ({ m with waiters := [], activity := .ready },
        .log (.flushed m.generation flushed) :: .emit (.opened m.generation flushed) ::
          answerAll m.waiters (.ok ())) := by
  cases m
  subst hqueue
  rfl

theorem mayStartAttempt_iff {phase : Phase} :
    phase.mayStartAttempt = true ↔ phase ≠ .live ∧ phase ≠ .connecting := by
  cases phase <;> simp [Phase.mayStartAttempt]

/-! ### The handlers one by one -/

theorem Settled.turn_connect (h : m.Settled) (ready : m.activity = .ready) (call : CallId) :
    Turn m (.command (.connect call)) (m.handleCommand (.connect call)) := by
  rw [handleCommand, serve, connect, Command.outline]
  by_cases live : m.phase = .live
  · rw [if_pos live]
    exact .welcomed call ready live
  · rw [if_neg live]
    by_cases connecting : m.phase = .connecting
    · have hjoined : m.phase.mayStartAttempt = false := by rw [connecting]; rfl
      simp only [hjoined, Bool.not_false, if_true]
      exact .joined call ready connecting
    · have free := mayStartAttempt_iff.mpr ⟨live, connecting⟩
      obtain ⟨hwriter, hreader⟩ := h.unlinked live
      simp only [free, Bool.not_true, h.waiters_eq connecting, List.nil_append,
        Bool.false_eq_true, if_false]
      rw [release_unlinked]
      · exact .called call ready free
      · exact hwriter
      · exact hreader

theorem Settled.turn_send (h : m.Settled) (ready : m.activity = .ready) (payload : Payload) :
    Turn m (.command (.send payload)) (m.handleCommand (.send payload)) := by
  rw [handleCommand, serve, send, Command.outline]
  by_cases live : m.phase = .live
  · obtain ⟨link, hwriter, -⟩ := h.held live
    have hqueues : m.phase.queuesOutbound = false := by rw [live]; rfl
    rw [hqueues, if_neg Bool.false_ne_true, writeNow_linked hwriter]
    exact .handedOver payload link ready live hwriter
  · have hqueues : m.phase.queuesOutbound = true := bne_iff_ne.mpr live
    rw [if_pos hqueues]
    by_cases connecting : m.phase = .connecting
    · have hjoined : m.phase.mayStartAttempt = false := by rw [connecting]; rfl
      simp only [hjoined, Bool.false_eq_true, if_false]
      exact .queued payload ready connecting
    · have free := mayStartAttempt_iff.mpr ⟨live, connecting⟩
      obtain ⟨hwriter, hreader⟩ := h.unlinked live
      simp only [free, if_true]
      rw [release_unlinked]
      · exact .summoned payload ready free
      · exact hwriter
      · exact hreader

theorem Settled.turn_reset (h : m.Settled) (ready : m.activity = .ready) {input : Input}
    {record : LogRecord} {rest : Resume} (order : Dismissal m input record rest) :
    Turn m input ((m.reset rest).after [.log record]) := by
  by_cases live : m.phase = .live
  · obtain ⟨link, hwriter, hreader⟩ := h.held live
    have hattempting : m.attempting = false := by
      rw [← Bool.not_eq_true, h.attempting_iff, live]
      decide
    rw [reset_linked hwriter hreader hattempting]
    exact .dismissing order link ready live hwriter
  · obtain ⟨hwriter, hreader⟩ := h.unlinked live
    rw [reset, release_unlinked]
    · exact .dismissed order ready live
    · exact hwriter
    · exact hreader

theorem Settled.turn_command (h : m.Settled) (ready : m.activity = .ready) (command : Command) :
    Turn m (.command command) (m.handleCommand command) := by
  cases command with
  | connect call => exact h.turn_connect ready call
  | send payload => exact h.turn_send ready payload
  | close call => exact h.turn_reset ready (.close call)
  | addObserver observer => exact .registered observer ready
  | snapshot query => exact .reported query ready

theorem Settled.turn_attemptFailed (h : m.Settled) (ready : m.activity = .ready)
    (connecting : m.phase = .connecting) (error : Failure) :
    Turn m (.attemptFinished m.generation (.error error))
      ({ m with attempting := false }.attemptFailed error) := by
  have hlive : m.phase ≠ .live := by rw [connecting]; decide
  obtain ⟨hwriter, hreader⟩ := h.unlinked hlive
  rw [attemptFailed]
  simp only [List.partition_eq_filter_filter]
  by_cases nobody : m.waiters.filter Waiter.isCarriedOver = []
  · have hnobody : m.carriedOver = [] := by rw [carriedOver, nobody, List.map_nil]
    simp only [nobody, List.isEmpty_nil, if_true, List.map_nil]
    exact .failed error ready connecting hnobody
  · have hsomebody : m.carriedOver ≠ [] := by simpa [carriedOver] using nobody
    simp only [List.isEmpty_iff, nobody, if_false]
    rw [release_unlinked]
    · have hturn := Turn.failedRetrying error ready connecting hsomebody
      simp only [carriedOver, List.length_map] at hturn
      exact hturn
    · exact hwriter
    · exact hreader

theorem turn_attemptSucceeded (ready : m.activity = .ready)
    (connecting : m.phase = .connecting) (link : LinkId) :
    Turn m (.attemptFinished m.generation (.ok link))
      ({ m with attempting := false }.attemptSucceeded link) := by
  rw [attemptSucceeded]
  cases hqueue : m.queue with
  | nil =>
    rw [drain_nil]
    · have hturn := Turn.opened link ready connecting hqueue
      simpa [Reaction.after, ready, hqueue] using hturn
    · rfl
  | cons payload rest =>
    rw [drain_cons]
    · have hturn := Turn.openedDraining link payload rest ready connecting hqueue
      simpa [Reaction.after, hqueue] using hturn
    · rfl
    · rfl

theorem Settled.turn_attemptFinished (h : m.Settled) (ready : m.activity = .ready)
    (generation : Nat) (result : Except Failure LinkId) :
    Turn m (.attemptFinished generation result) (m.attemptFinished generation result) := by
  rw [attemptFinished]
  by_cases present : generation = m.generation ∧ m.phase = .connecting
  · rw [if_pos present]
    obtain ⟨rfl, connecting⟩ := present
    cases result with
    | error error => exact h.turn_attemptFailed ready connecting error
    | ok link => exact turn_attemptSucceeded ready connecting link
  · rw [if_neg present]
    cases result with
    | ok link => exact .staleSuccess generation link ready present
    | error error => exact .staleFailure generation error ready present

theorem Settled.turn_linkReported (h : m.Settled) (ready : m.activity = .ready) (generation : Nat)
    (event : LinkEvent) (panicking : List ObserverId) :
    Turn m (.linkEvent generation event panicking)
      (m.linkReported generation event panicking) := by
  unfold linkReported
  by_cases present : generation = m.generation
  · rw [if_pos present]
    subst present
    cases event with
    | message payload => exact .received payload panicking ready
    | closed status =>
      dsimp only
      rw [linkClosed]
      by_cases live : m.phase = .live
      · obtain ⟨link, hwriter, -⟩ := h.held live
        rw [if_pos live, release_unread]
        · exact .peerClosed status panicking link ready live hwriter
        · exact hwriter
      · rw [if_neg live]
        exact .alreadyDown status panicking ready live
  · rw [if_neg present]
    exact .staleEvent generation event panicking ready present

theorem Settled.turn (h : m.Settled) (ready : m.activity = .ready) (input : Input) :
    Turn m input (m.receive input) := by
  cases input with
  | command command => exact h.turn_command ready command
  | attemptFinished generation result => exact h.turn_attemptFinished ready generation result
  | linkEvent generation event panicking =>
    exact h.turn_linkReported ready generation event panicking
  | commandsEnded => exact h.turn_reset ready .shutdown
  | written result => exact .ignored _ (by simp [fits, ready])
  | closed outcome => exact .ignored _ (by simp [fits, ready])

theorem Settled.turn_written (h : m.Settled) (live : m.phase = .live) {payload : Payload}
    (busy : m.activity = .writing payload) (result : Except Failure Unit) :
    Turn m (.written result) (m.step (.written result)) := by
  cases result with
  | ok =>
    simp only [step, busy]
    exact .wrote payload busy
  | error error =>
    obtain ⟨link, hwriter, hreader⟩ := h.held live
    simp only [step, busy]
    rw [writeFailed_linked]
    · exact .writeLost payload error link busy hwriter
    · exact hwriter
    · exact hreader

theorem Linked.turn_written (h : m.Linked) {payload : Payload} {flushed : Nat}
    (busy : m.activity = .draining payload flushed) (result : Except Failure Unit) :
    Turn m (.written result) (m.step (.written result)) := by
  obtain ⟨link, hwriter⟩ := Option.isSome_iff_exists.mp h.writer_isSome
  cases result with
  | ok =>
    cases hqueue : m.queue with
    | nil =>
      simp only [step, busy]
      rw [drain_nil]
      · exact .drained payload flushed busy hqueue
      · exact hqueue
    | cons next rest =>
      simp only [step, busy]
      rw [drain_cons]
      · exact .drainedOne payload next rest flushed link busy hqueue hwriter
      · exact hqueue
      · exact hwriter
  | error error =>
    simp only [step, busy]
    rw [writeFailed_linked]
    · exact .drainLost payload flushed error link busy hwriter
    · exact hwriter
    · exact h.reader_eq.trans hwriter

/-- What a manager with sound books does is one of the cases. -/
theorem Sound.turn (h : m.Sound) (input : Input) : Turn m input (m.step input) := by
  by_cases stray : m.fits input = false
  · rw [step_of_stray stray]
    exact .ignored input stray
  -- each activity but the first waits for one kind of input
  cases busy : m.activity with
  | ready =>
    have hturn := (h.settled busy).turn busy input
    simpa only [step, busy] using hturn
  | writing payload =>
    simp only [Sound, busy] at h
    cases input with
    | written result => exact h.1.turn_written h.2 busy result
    | _ => simp [fits, busy] at stray
  | draining payload flushed =>
    simp only [Sound, busy] at h
    cases input with
    | written result => exact h.turn_written busy result
    | _ => simp [fits, busy] at stray
  | closing generation rest =>
    cases input with
    | closed outcome =>
      simp only [step, busy]
      exact .released generation rest outcome busy
    | _ => simp [fits, busy] at stray
  | ended => cases input <;> simp [fits, busy] at stray

/-! ## The books stay in order -/

theorem of_settled (h : m.Settled) (ready : m.activity = .ready) : m.Sound := by
  simpa only [Sound, ready] using h

/-- Without a link, an attempt and callers, the books are settled if nothing is queued that an idle
connection would not queue. -/
theorem settled_of_resting (hphase : m.phase = .idle ∧ m.queue = [] ∨ m.phase = .down)
    (hwriter : m.writer = none) (hreader : m.reader = none) (hattempting : m.attempting = false)
    (hwaiters : m.waiters = []) : m.Settled := by
  obtain ⟨hphase, hqueue⟩ | hphase := hphase
  · exact ⟨by simp [hwriter, hphase], hreader.trans hwriter.symm, by simp [hattempting, hphase],
      fun _ => hwaiters, by simp [hphase], fun _ => hqueue⟩
  · exact ⟨by simp [hwriter, hphase], hreader.trans hwriter.symm, by simp [hattempting, hphase],
      fun _ => hwaiters, by simp [hphase], by simp [hphase]⟩

/-- An attempt that starts without a link settles the books if the callers stand in line for it. -/
theorem sound_beginAttempt (hwriter : m.writer = none) (hreader : m.reader = none)
    {trigger : Trigger} (hlineup : Lineup trigger m.waiters) :
    (m.beginAttempt trigger).1.Sound := by
  have hsettled : (m.beginAttempt trigger).1.Settled :=
    ⟨by simp [beginAttempt, hwriter], hreader.trans hwriter.symm, by simp [beginAttempt],
      fun hne => absurd rfl hne, fun _ => hlineup, by simp [beginAttempt]⟩
  exact hsettled

theorem sound_settleReset (hwriter : m.writer = none) (hreader : m.reader = none)
    (hattempting : m.attempting = false) {activity : Activity}
    (hactivity : activity = .ready ∨ activity = .ended) :
    (m.settleReset activity).1.Sound := by
  have hsettled : (m.settleReset activity).1.Settled :=
    settled_of_resting (.inl ⟨rfl, rfl⟩) hwriter hreader hattempting rfl
  obtain rfl | rfl := hactivity
  · exact hsettled
  · exact ⟨hsettled, rfl⟩

theorem Severed.sound_resume {rest : Resume} (h : m.Severed rest) : (m.resume rest).1.Sound := by
  have hleft := h.leftFor
  cases rest with
  | linkLost error draining =>
    have hsettled : (m.settleLost error draining).1.Settled := by
      refine settled_of_resting (.inr rfl) h.writer_eq h.reader_eq h.attempting_eq ?_
      cases draining with
      | true => rfl
      | false => exact hleft
    exact hsettled
  | linkClosed status =>
    have hsettled : (m.settleClosed status).1.Settled :=
      settled_of_resting (.inr rfl) h.writer_eq h.reader_eq h.attempting_eq hleft.1
    exact hsettled
  | reset call => exact sound_settleReset h.writer_eq h.reader_eq h.attempting_eq (.inl rfl)
  | shutdown => exact sound_settleReset h.writer_eq h.reader_eq h.attempting_eq (.inr rfl)
  | attempt trigger => exact hleft.elim
  | nothing => exact hleft.elim

/-- A link that is held while nothing is under way can be given up. -/
theorem Settled.severed (h : m.Settled) (live : m.phase = .live) {rest : Resume}
    (hrest : ∀ left : Manager, left.waiters = [] → left.queue = m.queue → left.LeftFor rest) :
    { m with
      reader := none, writer := none
      activity := .closing m.generation rest }.Severed rest := by
  have hconnecting : m.phase ≠ .connecting := by rw [live]; decide
  have hattempting : m.attempting = false := by
    rw [← Bool.not_eq_true, h.attempting_iff]
    exact hconnecting
  exact ⟨live, rfl, rfl, hattempting, hrest _ (h.waiters_eq hconnecting) rfl⟩

section Line

variable {present : List Waiter} {joined : List CallId}

/-- Of the callers in line for an attempt that fails, those who had joined it are carried over. -/
theorem carriedOver_of_line (h : m.waiters = present ++ joined.map .joiner)
    (hpresent : ∀ waiter ∈ present, Waiter.isCarriedOver waiter = false) :
    m.carriedOver = joined.map .carried := by
  have hnone : present.filter Waiter.isCarriedOver = [] := by
    simpa [List.filter_eq_nil_iff] using hpresent
  have hjoined : (joined.map Waiter.joiner).filter Waiter.isCarriedOver =
      joined.map Waiter.joiner := by
    simp [List.filter_eq_self, Waiter.joiner, Waiter.isCarriedOver]
  rw [carriedOver, h, List.filter_append, hnone, hjoined, List.nil_append, List.map_map]
  rfl

/-- Of the callers in line for an attempt that fails, all who were there when it started are
turned away. -/
theorem turnedAway_of_line (h : m.waiters = present ++ joined.map .joiner)
    (hpresent : ∀ waiter ∈ present, Waiter.isCarriedOver waiter = false) :
    m.turnedAway = present := by
  have hall : (present.filter fun waiter => !Waiter.isCarriedOver waiter) = present := by
    simpa [List.filter_eq_self] using hpresent
  have hjoined : ((joined.map Waiter.joiner).filter fun waiter => !Waiter.isCarriedOver waiter) =
      [] := by
    simp [List.filter_eq_nil_iff, Waiter.joiner, Waiter.isCarriedOver]
  rw [turnedAway, h, List.filter_append, hall, hjoined, List.append_nil]

/-- The callers who were there when the attempt in flight started, and those who joined it. -/
theorem Settled.exists_line (h : m.Settled) (connecting : m.phase = .connecting) :
    ∃ (present : List Waiter) (joined : List CallId), m.waiters = present ++ joined.map .joiner ∧
      ∀ waiter ∈ present, Waiter.isCarriedOver waiter = false := by
  obtain ⟨initiator, carried, joined, hwaiters, -, -⟩ := h.lineup connecting
  refine ⟨_, joined, hwaiters, fun waiter hmem => ?_⟩
  rw [List.mem_append, List.mem_map, List.mem_map] at hmem
  obtain ⟨call, -, rfl⟩ | ⟨call, -, rfl⟩ := hmem <;> rfl

end Line

/-- The callers who are carried over stand in line for a retry. -/
theorem Settled.lineup_carriedOver (h : m.Settled) (connecting : m.phase = .connecting)
    (somebody : m.carriedOver ≠ []) : Lineup .retry m.carriedOver := by
  obtain ⟨present, joined, hwaiters, hpresent⟩ := h.exists_line connecting
  rw [carriedOver_of_line hwaiters hpresent] at somebody ⊢
  exact .retry fun hnil => somebody (by rw [hnil, List.map_nil])

theorem Settled.turnedAway_append_carriedOver (h : m.Settled) (connecting : m.phase = .connecting) :
    m.turnedAway.map (·.call) ++ m.carriedOver.map (·.call) = m.waiting := by
  obtain ⟨present, joined, hwaiters, hpresent⟩ := h.exists_line connecting
  rw [turnedAway_of_line hwaiters hpresent, carriedOver_of_line hwaiters hpresent, waiting,
    hwaiters]
  simp [Function.comp_def, Waiter.carried, Waiter.joiner]

theorem Turn.sound {input : Input} {reaction : Reaction} (turn : Turn m input reaction)
    (h : m.Sound) : reaction.1.Sound := by
  cases turn with
  | welcomed | reported | staleFailure | received | alreadyDown | staleEvent | ignored =>
    exact h
  | joined call ready connecting =>
    have hsettled := h.settled ready
    refine of_settled ?_ ready
    exact { hsettled with
      waiters_eq := fun hne => absurd connecting hne
      lineup := fun _ => (hsettled.lineup connecting).join call }
  | called call ready free =>
    -- the caller is alone in line, as nobody waits without an attempt in flight
    obtain ⟨hwriter, hreader⟩ := (h.settled ready).unlinked (mayStartAttempt_iff.mp free).1
    apply sound_beginAttempt
    · exact hwriter
    · exact hreader
    · exact .caller call
  | handedOver payload link ready live held =>
    have hsettled := h.settled ready
    exact ⟨{ hsettled with }, live⟩
  | queued payload ready connecting =>
    have hsettled := h.settled ready
    refine of_settled ?_ ready
    exact { hsettled with queue_eq := by simp [connecting] }
  | summoned payload ready free =>
    have hsettled := h.settled ready
    obtain ⟨hlive, hconnecting⟩ := mayStartAttempt_iff.mp free
    obtain ⟨hwriter, hreader⟩ := hsettled.unlinked hlive
    apply sound_beginAttempt
    · exact hwriter
    · exact hreader
    · exact hsettled.waiters_eq hconnecting ▸ .send
  | registered observer ready =>
    exact of_settled { h.settled ready with } ready
  | dismissing order link ready live held =>
    have hsettled := h.settled ready
    have hqueue := hsettled.queue_eq (.inl live)
    cases order with
    | close call =>
      exact ⟨rfl, hsettled.severed live fun _ hwaiters hleft => ⟨hwaiters, hleft.trans hqueue⟩⟩
    | shutdown =>
      exact ⟨rfl, hsettled.severed live fun _ hwaiters hleft => ⟨hwaiters, hleft.trans hqueue⟩⟩
  | dismissed order ready unlinked =>
    obtain ⟨hwriter, hreader⟩ := (h.settled ready).unlinked unlinked
    have hreset {activity : Activity} (hactivity : activity = .ready ∨ activity = .ended) :=
      sound_settleReset (m := { m with attempting := false }) hwriter hreader rfl hactivity
    cases order with
    | close call => exact hreset (.inl rfl)
    | shutdown => exact hreset (.inr rfl)
  | staleSuccess generation link ready stale =>
    -- the late link is closed beside the books, which stay settled
    have hsettled := h.settled ready
    have hclosing : Settled { m with activity := .closing generation .nothing } :=
      { hsettled with }
    exact hclosing
  | opened link ready connecting empty =>
    refine of_settled ?_ ready
    exact ⟨by simp, rfl, by simp, fun _ => rfl, by simp, fun _ => empty⟩
  | openedDraining link payload rest ready connecting nonempty =>
    -- the connection is live with callers in line, which the books allow within a drain only
    have hlinked : Linked { m with
        attempting := false, writer := some link, reader := some link, phase := .live
        queue := rest, activity := .draining payload 0 } :=
      ⟨rfl, rfl, rfl, rfl, (h.settled ready).lineup connecting⟩
    exact hlinked
  | failed error ready connecting nobody =>
    have hlive : m.phase ≠ .live := by rw [connecting]; decide
    obtain ⟨hwriter, hreader⟩ := (h.settled ready).unlinked hlive
    exact of_settled (settled_of_resting (.inr rfl) hwriter hreader rfl rfl) ready
  | failedRetrying error ready connecting somebody =>
    have hsettled := h.settled ready
    have hlive : m.phase ≠ .live := by rw [connecting]; decide
    obtain ⟨hwriter, hreader⟩ := hsettled.unlinked hlive
    apply sound_beginAttempt
    · exact hwriter
    · exact hreader
    · exact hsettled.lineup_carriedOver connecting somebody
  | peerClosed status panicking link ready live held =>
    have hsettled := h.settled ready
    have hqueue := hsettled.queue_eq (.inl live)
    exact ⟨rfl, hsettled.severed live fun _ hwaiters hleft => ⟨hwaiters, hleft.trans hqueue⟩⟩
  | wrote payload busy =>
    simp only [Sound, busy] at h
    exact of_settled { h.1 with } rfl
  | writeLost payload error link busy held =>
    -- the phase is live until the writer has been closed, though the queue is not empty
    simp only [Sound, busy] at h
    have hconnecting : m.phase ≠ .connecting := by rw [h.2]; decide
    have hattempting : m.attempting = false := by
      rw [← Bool.not_eq_true, h.1.attempting_iff]
      exact hconnecting
    exact ⟨rfl, h.2, rfl, rfl, hattempting, h.1.waiters_eq hconnecting⟩
  | drained payload flushed busy empty =>
    simp only [Sound, busy] at h
    refine of_settled ?_ rfl
    exact ⟨by simp [h.writer_isSome, h.phase_eq], h.reader_eq,
      by simp [h.attempting_eq, h.phase_eq], fun _ => rfl, by simp [h.phase_eq], fun _ => empty⟩
  | drainedOne payload next rest flushed link busy nonempty held =>
    simp only [Sound, busy] at h
    have hlinked : Linked { m with queue := rest, activity := .draining next (flushed + 1) } :=
      { h with }
    exact hlinked
  | drainLost payload flushed error link busy held =>
    simp only [Sound, busy] at h
    exact ⟨rfl, h.phase_eq, rfl, rfl, h.attempting_eq, h.lineup⟩
  | released generation rest outcome busy =>
    cases rest with
    | nothing =>
      -- the link was a late one, and the books have been settled all along
      simp only [Sound, busy] at h
      exact of_settled { h with } rfl
    | _ =>
      simp only [Sound, busy] at h
      exact h.2.sound_resume

theorem Sound.step (h : m.Sound) (input : Input) : (m.step input).1.Sound :=
  (h.turn input).sound h

theorem Sound.run (h : m.Sound) (inputs : List Input) : (m.run inputs).1.Sound := by
  induction inputs using List.reverseRecOn with
  | nil => exact h
  | append_singleton inputs input ih =>
    rw [run_concat_fst]
    exact ih.step input

theorem sound_new (url : String) : Sound { url } :=
  of_settled (settled_of_resting (.inl ⟨rfl, rfl⟩) rfl rfl rfl rfl) rfl

/-- The books of a manager are sound at every moment of every run. -/
theorem sound_run (url : String) (inputs : List Input) : (run { url } inputs).1.Sound :=
  (sound_new url).run inputs

theorem Sound.settled_of_ended (h : m.Sound) (ended : m.activity = .ended) :
    m.Settled ∧ m.phase = .idle := by
  simpa only [Sound, ended] using h

theorem Sound.linked (h : m.Sound) {payload : Payload} {flushed : Nat}
    (busy : m.activity = .draining payload flushed) : m.Linked := by
  simpa only [Sound, busy] using h

/-- An attempt never waits for a writer to be closed. -/
theorem Sound.not_closing_for_attempt (h : m.Sound) (generation : Nat) (trigger : Trigger) :
    m.activity ≠ .closing generation (.attempt trigger) := by
  intro busy
  simp only [Sound, busy] at h
  exact h.2.leftFor

/-! ## A failed attempt -/

/-- The attempt in flight fails, as an input tells. -/
def Fails (m : Manager) (input : Input) (cause : Failure) : Prop :=
  m.activity = .ready ∧ m.phase = .connecting ∧
    input = .attemptFinished m.generation (.error cause)

/-- What a failed attempt leads to: callers are turned away, and for those who are carried over
another attempt starts. -/
structure AfterFailure (m : Manager) (cause : Failure) (reaction : Reaction) : Prop where
  activity_eq : reaction.1.activity = .ready
  waiters_eq : reaction.1.waiters = m.carriedOver
  events_eq : events reaction.2 =
    .connectFailed m.generation m.trigger cause.message ::
      if m.carriedOver = [] then [] else [.connecting (m.generation + 1) .retry]
  answers_eq : answers reaction.2 =
    m.turnedAway.map fun waiter => (waiter.call, .error (.connectFailed cause))
  attempts_eq : attempts reaction.2 = if m.carriedOver = [] then [] else [m.generation + 1]

/-- A failed attempt is dealt with in one step. -/
theorem Sound.step_of_fails (h : m.Sound) {input : Input} {cause : Failure}
    (hfails : m.Fails input cause) : m.AfterFailure cause (m.step input) := by
  obtain ⟨ready, connecting, rfl⟩ := hfails
  have hturn := h.turn (.attemptFinished m.generation (.error cause))
  generalize m.step (.attemptFinished m.generation (.error cause)) = reaction at hturn
  cases hturn with
  | staleFailure _ _ _ stale => exact absurd ⟨rfl, connecting⟩ stale
  | failed _ _ _ nobody => exact ⟨ready, nobody.symm, by simp [nobody], by simp, by simp [nobody]⟩
  | failedRetrying _ _ _ somebody =>
    exact ⟨rfl, rfl, by simp [somebody, event?], by simp [answer?], by simp [somebody, attempt?]⟩
  | dismissing order | dismissed order => cases order
  | ignored _ stray => simp [fits, ready] at stray

/-- **The books between two inputs.** Whatever happened to a manager, its books are settled as soon
as nothing is under way. So a payload that is to be written at once finds a writer, as does each
payload of the queue after the first, whose writer has just come; and an attempt starts without a
writer to be closed before. -/
theorem books_settled (url : String) (inputs : List Input) :
    let m := (run { url } inputs).1
    (m.activity = .ready ∨ m.activity = .ended → m.Settled) ∧
      (m.activity = .ready → m.phase.queuesOutbound = false → m.writer ≠ none) ∧
      (∀ payload flushed, m.activity = .draining payload flushed → m.writer ≠ none) ∧
      (m.activity = .ready → m.phase.queuesOutbound = true → m.writer = none) ∧
      ∀ generation trigger, m.activity ≠ .closing generation (.attempt trigger) := by
  intro m
  have hsound : m.Sound := sound_run url inputs
  refine ⟨?_, ?_, ?_, ?_, hsound.not_closing_for_attempt⟩
  · rintro (ready | ended)
    · exact hsound.settled ready
    · exact (hsound.settled_of_ended ended).1
  · intro ready hqueues
    have live : m.phase = .live := by simpa [Phase.queuesOutbound] using hqueues
    obtain ⟨link, hwriter, -⟩ := (hsound.settled ready).held live
    simp [hwriter]
  · intro payload flushed busy hwriter
    have hsome := (hsound.linked busy).writer_isSome
    simp [hwriter] at hsome
  · intro ready hqueues
    have hlive : m.phase ≠ .live := by simpa [Phase.queuesOutbound] using hqueues
    exact ((hsound.settled ready).unlinked hlive).1

/-- A caller has joined an attempt that failed, and waits for the retry. -/
theorem books_settled_retrying :
    let inputs : List Input := [.command (.connect 0), .command (.connect 1),
      .attemptFinished 1 (.error .connectTimeout)]
    let m := (run { url := "ws://localhost:80/" } inputs).1
    m.activity = .ready ∧ m.phase = .connecting ∧ m.trigger = .retry ∧
      m.waiters = [.carried 1] ∧ m.Settled ∧ m.writer = none := by
  have hbooks := books_settled "ws://localhost:80/"
    [.command (.connect 0), .command (.connect 1), .attemptFinished 1 (.error .connectTimeout)]
  exact ⟨rfl, rfl, rfl, rfl, hbooks.1 (.inl rfl), hbooks.2.2.2.1 rfl rfl⟩

end Manager

end PersistentLink
