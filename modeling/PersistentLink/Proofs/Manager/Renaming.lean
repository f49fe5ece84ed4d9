import PersistentLink.Proofs.Manager.Run

/-!
# Other payloads, and other generations

The size of a payload is logged, and nothing else is ever read off one. Generations are compared and
counted on, and nothing else is done with them. So a manager does the same when other payloads of
the same sizes come in, and when it counts its generations from a later one, apart from the payloads
and the generations in its books, in its inputs and in what it does.

## Main definitions

- `Recoding`: a change of payloads that keeps their sizes
- `Manager.recode`, `Input.recode`, `Effect.recode`: books, inputs and effects with other payloads
- `Effect.payload?`: the payload that an effect gives to a link or to an observer
- `Manager.shift`, `Input.shift`, `Effect.shift`: books, inputs and effects with later generations
- `Renaming`: a change of payloads and generations at once

## Main results

- `Manager.step_rename`: a step commutes with a renaming
- `Manager.step_recode`: a step commutes with a recoding
- `Manager.run_shift`: a run commutes with a shift

## Design notes

The handlers are followed once, for payloads and generations together. A recoding is the renaming
that leaves generations as they are, and a shift the one that leaves payloads as they are.
-/

namespace PersistentLink

/-! ## Other payloads -/

/-- A change of payloads that keeps their sizes. It may turn text to octets, and different payloads
into one. -/
structure Recoding where
  /-- the payload that stands for another -/
  apply : Payload → Payload
  /-- the size stays -/
  size_apply (payload : Payload) : (apply payload).size = payload.size

namespace Recoding

instance : CoeFun Recoding fun _ => Payload → Payload := ⟨apply⟩

@[simp]
theorem size_coe (recoding : Recoding) (payload : Payload) :
    (recoding payload).size = payload.size :=
  recoding.size_apply payload

end Recoding

variable (recoding : Recoding)

/-- The command with its payload recoded. -/
def Command.recode : Command → Command
  | send payload => send (recoding payload)
  | command => command

/-- The event with its payload recoded. -/
def LinkEvent.recode : LinkEvent → LinkEvent
  | message payload => message (recoding payload)
  | event => event

/-- The activity with its payload recoded. -/
@[simp]
def Activity.recode : Activity → Activity
  | writing payload => writing (recoding payload)
  | draining payload flushed => draining (recoding payload) flushed
  | activity => activity

/-- The input with its payload recoded. -/
def Input.recode : Input → Input
  | command order => command (order.recode recoding)
  | linkEvent generation event panicking =>
    linkEvent generation (event.recode recoding) panicking
  | input => input

/-- The books with their payloads recoded. -/
def Manager.recode (m : Manager) : Manager :=
  { m with queue := m.queue.map recoding, activity := m.activity.recode recoding }

namespace Effect

/-- The effect with its payload recoded. -/
@[simp]
def recode : Effect → Effect
  | write link payload => write link (recoding payload)
  | observe observer payload => observe observer (recoding payload)
  | effect => effect

/-- The payload that is given to a link or to an observer. -/
def payload? : Effect → Option Payload
  | write _ payload | observe _ payload => some payload
  | _ => none

theorem recode_of_payload? {effect : Effect} (h : effect.payload? = none) :
    effect.recode recoding = effect := by
  cases effect <;> simp_all [payload?]

@[simp]
theorem payload?_recode (effect : Effect) :
    (effect.recode recoding).payload? = effect.payload?.map recoding := by
  cases effect <;> rfl

end Effect

@[simp]
theorem Command.outline_recode (command : Command) :
    (command.recode recoding).outline = command.outline := by
  cases command <;> simp [recode, outline]

/-- The reaction with its payloads recoded. -/
def Reaction.recode (reaction : Reaction) : Reaction :=
  (reaction.1.recode recoding, reaction.2.map (Effect.recode recoding))

/-! ## Later generations -/

variable (n : Nat)

/-- The activity with its generation shifted. -/
@[simp]
def Activity.shift : Activity → Activity
  | .closing generation rest => .closing (generation + n) rest
  | activity => activity

/-- The report with its generation shifted. -/
def Snapshot.shift (snapshot : Snapshot) : Snapshot :=
  { snapshot with generation := snapshot.generation + n }

/-- The event with its generation shifted. -/
@[simp]
def LifecycleEvent.shift : LifecycleEvent → LifecycleEvent
  | connecting generation trigger => connecting (generation + n) trigger
  | opened generation flushed => opened (generation + n) flushed
  | connectFailed generation trigger reason => connectFailed (generation + n) trigger reason
  | closed generation status => closed (generation + n) status
  | reset discarded => reset discarded

/-- The record with its generations shifted. -/
@[simp]
def LogRecord.shift : LogRecord → LogRecord
  | staleAttempt generation current => staleAttempt (generation + n) (current + n)
  | staleLinkEvent generation current => staleLinkEvent (generation + n) (current + n)
  | opening generation url trigger => opening (generation + n) url trigger
  | opened generation queued => opened (generation + n) queued
  | flushed generation count => flushed (generation + n) count
  | reconnectFailed generation error queued => reconnectFailed (generation + n) error queued
  | attemptFailed generation error queued trigger =>
    attemptFailed (generation + n) error queued trigger
  | retrying generation waiters => retrying (generation + n) waiters
  | linkClosed generation status => linkClosed (generation + n) status
  | writeFailed generation error queued => writeFailed (generation + n) error queued
  | linkReleased generation => linkReleased (generation + n)
  | releaseFailed generation error => releaseFailed (generation + n) error
  | releaseTimedOut generation => releaseTimedOut (generation + n)
  | forwarding generation closed => forwarding (generation + n) closed
  | readerOrphaned generation => readerOrphaned (generation + n)
  | attemptOrphaned generation => attemptOrphaned (generation + n)
  | record => record

/-- The effect with its generations shifted. -/
@[simp]
def Effect.shift : Effect → Effect
  | log record => log (record.shift n)
  | emit event => emit (event.shift n)
  | report query snapshot => report query (snapshot.shift n)
  | startAttempt generation => startAttempt (generation + n)
  | startReader link generation => startReader link (generation + n)
  | effect => effect

/-- The input with its generation shifted. -/
@[simp]
def Input.shift : Input → Input
  | attemptFinished generation result => attemptFinished (generation + n) result
  | linkEvent generation event panicking => linkEvent (generation + n) event panicking
  | input => input

/-- The books with their generations shifted. -/
def Manager.shift (m : Manager) : Manager :=
  { m with generation := m.generation + n, activity := m.activity.shift n }

/-- The reaction with its generations shifted. -/
def Reaction.shift (reaction : Reaction) : Reaction :=
  (reaction.1.shift n, reaction.2.map (Effect.shift n))

/-! ## Both at once -/

/-- A change of payloads that keeps their sizes, and of all generations by the same number. -/
structure Renaming extends Recoding where
  /-- so many generations later -/
  since : Nat

namespace Renaming

/-- Generations stay. -/
def ofRecoding (recoding : Recoding) : Renaming :=
  { recoding with since := 0 }

/-- Payloads stay. -/
def ofShift (n : Nat) : Renaming where
  apply := id
  size_apply _ := rfl
  since := n

end Renaming

variable (r : Renaming)

/-- The input, renamed. -/
def Input.rename (input : Input) : Input :=
  (input.recode r.toRecoding).shift r.since

/-- The effect, renamed. -/
@[simp]
def Effect.rename (effect : Effect) : Effect :=
  (effect.recode r.toRecoding).shift r.since

/-- The activity, renamed. -/
@[simp]
def Activity.rename (activity : Activity) : Activity :=
  (activity.recode r.toRecoding).shift r.since

/-- The books, renamed. -/
def Manager.rename (m : Manager) : Manager :=
  { m with
    generation := m.generation + r.since
    queue := m.queue.map r.toRecoding
    activity := m.activity.rename r }

/-- The reaction, renamed. -/
def Reaction.rename (reaction : Reaction) : Reaction :=
  (reaction.1.rename r, reaction.2.map (Effect.rename r))

theorem Reaction.rename_after (reaction : Reaction) (earlier : List Effect) :
    (reaction.after earlier).rename r =
      Reaction.after (reaction.rename r) (earlier.map (Effect.rename r)) := by
  simp [rename, after]

namespace Manager

variable (m : Manager)

/-! ## The parts of a reaction -/

@[simp]
theorem map_rename_transition (source target : Phase) :
    (transition source target).map (Effect.rename r) = transition source target := by
  rw [transition]
  split <;> rfl

@[simp]
theorem map_rename_answerAll (waiters : List Waiter) (result : Except Failure Unit) :
    (answerAll waiters result).map (Effect.rename r) = answerAll waiters result := by
  simp [answerAll, Function.comp_def]

theorem snapshot_rename : (m.rename r).snapshot = m.snapshot.shift r.since := by
  simp [snapshot, Snapshot.shift, rename]

theorem failureRecord_rename (error : Failure) :
    (m.rename r).failureRecord error = (m.failureRecord error).shift r.since := by
  cases htrigger : m.trigger <;> simp [failureRecord, rename, htrigger]

/-- Observers are shown the other payload; who is shown it, and in which order, stays. -/
theorem dispatch_rename (payload : Payload) (panicking : List ObserverId) :
    (m.rename r).dispatch (r.toRecoding payload) panicking =
      (m.dispatch payload panicking).map (Effect.rename r) := by
  simp [dispatch, rename, List.map_flatMap, apply_ite (List.map (Effect.rename r))]

/-! ## The handlers -/

theorem beginAttempt_rename (trigger : Trigger) :
    (m.rename r).beginAttempt trigger = (m.beginAttempt trigger).rename r := by
  simp [beginAttempt, Reaction.rename, rename, Nat.add_right_comm]

theorem resume_rename (rest : Resume) :
    (m.rename r).resume rest = (m.resume rest).rename r := by
  cases rest with
  | linkLost error draining =>
    cases draining <;> simp [resume, settleLost, Reaction.rename, rename]
  | attempt trigger => exact beginAttempt_rename r m trigger
  | _ => simp [resume, settleClosed, settleReset, Reaction.rename, rename, Nat.add_right_comm]

theorem release_rename (rest : Resume) :
    (m.rename r).release rest = (m.release rest).rename r := by
  cases hwriter : m.writer with
  | some link =>
    cases hreader : m.reader <;> simp [release, Reaction.rename, rename, hwriter, hreader]
  | none =>
    have hresume := resume_rename r { m with reader := none } rest
    have hstop : (m.rename r).release rest =
        Reaction.after ({ m with reader := none }.rename r |>.resume rest)
          (if m.reader.isSome then [.abandonReader] else []) := by
      simp [release, rename, hwriter]
    rw [hstop, hresume]
    cases hreader : m.reader <;> simp [release, Reaction.rename, Reaction.after, hwriter, hreader]

theorem writeFailed_rename (error : Failure) (draining : Bool) :
    (m.rename r).writeFailed error draining =
      (m.writeFailed error draining).rename r := by
  have hqueued : (m.rename r).queue.length = m.queue.length := List.length_map _
  rw [writeFailed, writeFailed, release_rename, Reaction.rename_after, hqueued]
  rfl

theorem drain_rename (flushed : Nat) :
    (m.rename r).drain flushed = (m.drain flushed).rename r := by
  cases hqueue : m.queue with
  | nil => simp [drain, rename, hqueue, Reaction.rename]
  | cons payload rest =>
    cases hwriter : m.writer with
    | some link => simp [drain, rename, hqueue, hwriter, Reaction.rename]
    | none =>
      have hlost := writeFailed_rename r m .connectionClosed true
      simpa [drain, rename, hqueue, hwriter] using hlost

theorem writeNow_rename (payload : Payload) :
    (m.rename r).writeNow (r.toRecoding payload) = (m.writeNow payload).rename r := by
  cases hwriter : m.writer with
  | some link => simp [writeNow, rename, hwriter, Reaction.rename]
  | none =>
    have hlost := writeFailed_rename r { m with queue := payload :: m.queue }
      .connectionClosed false
    simpa [writeNow, rename, hwriter] using hlost

theorem connect_rename (call : CallId) :
    (m.rename r).connect call = (m.connect call).rename r := by
  by_cases live : m.phase = .live
  · simp [connect, rename, live, Reaction.rename]
  · cases free : m.phase.mayStartAttempt with
    | false => simp [connect, rename, live, free, Reaction.rename]
    | true =>
      have hrelease := release_rename r
        { m with waiters := m.waiters ++ [⟨call, false, false⟩] } (.attempt .caller)
      simpa [connect, rename, live, free] using hrelease

theorem send_rename (payload : Payload) :
    (m.rename r).send (r.toRecoding payload) = (m.send payload).rename r := by
  cases hqueues : m.phase.queuesOutbound with
  | false => simpa [send, rename, hqueues] using writeNow_rename r m payload
  | true =>
    cases free : m.phase.mayStartAttempt with
    | false => simp [send, rename, hqueues, free, Reaction.rename]
    | true =>
      have hrelease := release_rename r { m with queue := m.queue ++ [payload] }
        (.attempt .send)
      have hlogged := congrArg
        (Reaction.after · [.log (.queuedAndReconnecting (m.queue.length + 1))]) hrelease
      simpa [send, rename, hqueues, free, Reaction.rename, Reaction.after] using hlogged

theorem reset_rename (rest : Resume) :
    (m.rename r).reset rest = (m.reset rest).rename r := by
  have hrelease := release_rename r { m with attempting := false } rest
  have hstopped := congrArg
    (Reaction.after · (if m.attempting then [.abandonAttempt] else [])) hrelease
  cases hattempting : m.attempting <;>
    simpa [reset, rename, Reaction.rename, Reaction.after, hattempting] using hstopped

theorem serve_rename (command : Command) :
    (m.rename r).serve (command.recode r.toRecoding) = (m.serve command).rename r := by
  cases command with
  | connect call => exact connect_rename r m call
  | send payload => exact send_rename r m payload
  | close call => exact reset_rename r m (.reset call)
  | addObserver observer => rfl
  | snapshot query => simp [serve, Command.recode, Reaction.rename, snapshot_rename]

theorem handleCommand_rename (command : Command) :
    (m.rename r).handleCommand (command.recode r.toRecoding) =
      (m.handleCommand command).rename r := by
  rw [handleCommand, handleCommand, serve_rename, Reaction.rename_after, Command.outline_recode]
  rfl

theorem attemptSucceeded_rename (link : LinkId) :
    (m.rename r).attemptSucceeded link = (m.attemptSucceeded link).rename r := by
  rw [attemptSucceeded, attemptSucceeded, Reaction.rename_after, ← drain_rename]
  simp [rename]

theorem attemptFailed_rename (error : Failure) :
    (m.rename r).attemptFailed error = (m.attemptFailed error).rename r := by
  simp only [attemptFailed, List.partition_eq_filter_filter, failureRecord_rename]
  by_cases nobody : m.waiters.filter Waiter.isCarriedOver = []
  · simp [rename, nobody, Reaction.rename]
  · have hrelease := release_rename r
      { m with
        phase := .down
        waiters := (m.waiters.filter Waiter.isCarriedOver).map ({ · with retried := true }) }
      (.attempt .retry)
    simp only [rename, List.isEmpty_iff, nobody, if_false]
    rw [Reaction.rename_after, ← hrelease]
    simp [rename]

theorem attemptFinished_rename (generation : Nat) (result : Except Failure LinkId) :
    (m.rename r).attemptFinished (generation + r.since) result =
      (m.attemptFinished generation result).rename r := by
  have hpresent : (generation + r.since = (m.rename r).generation ∧
      (m.rename r).phase = .connecting) ↔ generation = m.generation ∧ m.phase = .connecting :=
    and_congr_left' Nat.add_right_cancel_iff
  rw [attemptFinished, attemptFinished]
  by_cases present : generation = m.generation ∧ m.phase = .connecting
  · rw [if_pos present, if_pos (hpresent.mpr present)]
    cases result with
    | ok link => exact attemptSucceeded_rename r { m with attempting := false } link
    | error error => exact attemptFailed_rename r { m with attempting := false } error
  · rw [if_neg present, if_neg (mt hpresent.mp present)]
    cases result <;> rfl

theorem linkClosed_rename (status : CloseStatus) :
    (m.rename r).linkClosed status = (m.linkClosed status).rename r := by
  by_cases live : m.phase = .live
  · have hrelease := release_rename r { m with reader := none } (.linkClosed status)
    simpa [linkClosed, rename, live] using hrelease
  · simp [linkClosed, rename, live, Reaction.rename]

theorem linkReported_rename (generation : Nat) (event : LinkEvent) (panicking : List ObserverId) :
    (m.rename r).linkReported (generation + r.since) (event.recode r.toRecoding) panicking =
      (m.linkReported generation event panicking).rename r := by
  have hpresent : generation + r.since = (m.rename r).generation ↔ generation = m.generation :=
    Nat.add_right_cancel_iff
  unfold linkReported
  by_cases present : generation = m.generation
  · rw [if_pos present, if_pos (hpresent.mpr present)]
    cases event with
    | message payload => exact Prod.ext rfl (dispatch_rename r m payload panicking)
    | closed status => exact linkClosed_rename r m status
  · rw [if_neg present, if_neg (mt hpresent.mp present)]
    rfl

theorem receive_rename (input : Input) :
    (m.rename r).receive (input.rename r) = (m.receive input).rename r := by
  cases input with
  | command command => exact handleCommand_rename r m command
  | attemptFinished generation result => exact attemptFinished_rename r m generation result
  | linkEvent generation event panicking =>
    exact linkReported_rename r m generation event panicking
  | commandsEnded =>
    simp only [Input.rename, receive]
    rw [reset_rename, Reaction.rename_after]
    rfl
  | written result => rfl
  | closed outcome => rfl

/-- A manager does the same with other payloads, and from wherever it counts its generations. -/
theorem step_rename (input : Input) :
    (m.rename r).step (input.rename r) = (m.step input).rename r := by
  cases hactivity : m.activity with
  | ready =>
    have hreceive := receive_rename r m input
    simpa [step, rename, hactivity] using hreceive
  | writing payload =>
    cases input with
    | written result =>
      cases result with
      | ok => simp [step, rename, Input.rename, Input.recode, hactivity, Reaction.rename]
      | error error =>
        have hlost := writeFailed_rename r
          { m with queue := payload :: m.queue, activity := .ready } error false
        simpa [step, rename, Input.rename, Input.recode, hactivity] using hlost
    | _ => simp [step, rename, Input.rename, Input.recode, hactivity, Reaction.rename]
  | draining payload flushed =>
    cases input with
    | written result =>
      cases result with
      | ok =>
        have hdrain := drain_rename r { m with activity := .ready } (flushed + 1)
        simpa [step, rename, Input.rename, Input.recode, hactivity] using hdrain
      | error error =>
        have hlost := writeFailed_rename r
          { m with queue := payload :: m.queue, activity := .ready } error true
        simpa [step, rename, Input.rename, Input.recode, hactivity] using hlost
    | _ => simp [step, rename, Input.rename, Input.recode, hactivity, Reaction.rename]
  | closing generation rest =>
    cases input with
    | closed outcome =>
      have hstep : m.step (.closed outcome) =
          (m.resume rest).after [.log (closeRecord generation outcome)] := by
        simp only [step, hactivity]
      have hrenamed : (m.rename r).step (.closed outcome) = ((m.rename r).resume rest).after
          [.log (closeRecord (generation + r.since) outcome)] := by
        simp [step, rename, hactivity]
      rw [hstep, Reaction.rename_after, ← resume_rename]
      cases outcome <;> exact hrenamed
    | _ => simp [step, rename, Input.rename, Input.recode, hactivity, Reaction.rename]
  | ended =>
    cases input <;> simp [step, rename, Input.rename, Input.recode, hactivity, Reaction.rename]

end Manager

/-! ## One at a time -/

section Recoding

theorem Input.rename_ofRecoding (input : Input) :
    input.rename (.ofRecoding recoding) = input.recode recoding := by
  cases input <;> rfl

theorem Effect.rename_ofRecoding :
    Effect.rename (.ofRecoding recoding) = Effect.recode recoding := by
  funext effect
  cases effect with
  | log record => cases record <;> rfl
  | emit event => cases event <;> rfl
  | _ => rfl

theorem Manager.rename_ofRecoding (m : Manager) :
    m.rename (.ofRecoding recoding) = m.recode recoding := by
  cases hactivity : m.activity <;> simp [rename, recode, Renaming.ofRecoding, hactivity]

theorem Reaction.rename_ofRecoding (reaction : Reaction) :
    reaction.rename (.ofRecoding recoding) = reaction.recode recoding := by
  rw [rename, recode, Manager.rename_ofRecoding, Effect.rename_ofRecoding]

/-- A manager does the same with other payloads. -/
theorem Manager.step_recode (m : Manager) (input : Input) :
    (m.recode recoding).step (input.recode recoding) = (m.step input).recode recoding := by
  rw [← rename_ofRecoding, ← Input.rename_ofRecoding, step_rename, Reaction.rename_ofRecoding]

end Recoding

section Shift

theorem Input.rename_ofShift (input : Input) : input.rename (.ofShift n) = input.shift n := by
  cases input with
  | command order => cases order <;> rfl
  | linkEvent generation event => cases event <;> rfl
  | _ => rfl

theorem Effect.rename_ofShift : Effect.rename (.ofShift n) = Effect.shift n := by
  funext effect
  cases effect <;> rfl

theorem Manager.rename_ofShift (m : Manager) : m.rename (.ofShift n) = m.shift n := by
  cases hactivity : m.activity <;> simp [rename, shift, Renaming.ofShift, hactivity]

theorem Reaction.rename_ofShift (reaction : Reaction) :
    reaction.rename (.ofShift n) = reaction.shift n := by
  rw [rename, shift, Manager.rename_ofShift, Effect.rename_ofShift]

/-- A manager does the same from wherever it counts its generations. -/
theorem Manager.step_shift (m : Manager) (input : Input) :
    (m.shift n).step (input.shift n) = (m.step input).shift n := by
  rw [← rename_ofShift, ← Input.rename_ofShift, step_rename, Reaction.rename_ofShift]

theorem Manager.run_shift (m : Manager) (inputs : List Input) :
    (m.shift n).run (inputs.map (Input.shift n)) = (m.run inputs).shift n := by
  induction inputs generalizing m with
  | nil => rfl
  | cons input rest ih =>
    have hrest := ih (m.step input).1
    rw [List.map_cons, run_cons, run_cons, step_shift]
    simp only [Reaction.shift] at hrest ⊢
    rw [hrest, Reaction.after, Reaction.after, List.map_append]

end Shift

end PersistentLink
