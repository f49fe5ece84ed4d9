import PersistentLink.Proofs.Ensemble.Timeline
import PersistentLink.Proofs.Manager.Restart

/-!
# What the log tells

A failure that nobody waits for is told of by the log and by the published events only. The two tell
the same: an event is told of by one record, which is shown at the debug level, and the records that
tell of events stand in the log in the order in which the events are published.

A record is shown as a sentence with fields, and the event that it tells of is read off these.

## Main definitions

- `eventOfShown?`: the event that a sentence with fields tells of
- `LogRecord.event?`, `LogRecord.address?`: what a record tells of
- `Effect.shown`: a view of what is logged
- `Manager.unannounced`: the event that was logged and is not published yet

## Main results

- `LogRecord.event?_eq`: the records that tell of events
- `Manager.Turn.shown_event`: what a step logs, and what it publishes
- `Ensemble.address_of_run`: a manager knows one address, and no other one is logged
- `Ensemble.log_tells_events`: the log of a run, and the events that were published
-/

namespace PersistentLink

/-! ## Reading a record -/

def Trigger.ofName? : String → Option Trigger
  | "Caller" => some caller
  | "Send" => some send
  | "Retry" => some retry
  | _ => none

@[simp]
theorem Trigger.ofName?_name (trigger : Trigger) : ofName? trigger.name = some trigger := by
  cases trigger <;> rfl

namespace FieldValue

def number? : FieldValue → Option Nat
  | number value => some value
  | _ => none

def text? : FieldValue → Option String
  | text value => some value
  | _ => none

end FieldValue

/-- The event that a sentence with fields tells of. Most sentences tell of none. -/
def eventOfShown? (message : String) (fields : List (String × FieldValue)) :
    Option LifecycleEvent := do
  let number (name : String) := (fields.lookup name).bind FieldValue.number?
  let text (name : String) := (fields.lookup name).bind FieldValue.text?
  match message with
  | "Opening connection" =>
    return .connecting (← number "generation") (← (text "trigger").bind Trigger.ofName?)
  | "Flushed queued messages" => return .opened (← number "generation") (← number "flushed")
  | "Background reconnect failed" =>
    return .connectFailed (← number "generation") .send (← text "error")
  | "Connection attempt failed" =>
    return .connectFailed (← number "generation") (← (text "trigger").bind Trigger.ofName?)
      (← text "error")
  | "Connection closed"
  | "Connection closed unexpectedly, a later send or connect will reconnect" =>
    return .closed (← number "generation") ⟨.ofNat (← number "code"), ← text "reason"⟩
  | "Write failed, treating the link as lost" =>
    return .closed (← number "generation") ⟨1006, ← text "error"⟩
  | "Connection manager reset" => return .reset (← number "discarded")
  | _ => none

namespace LogRecord

/-- The event that a record tells of, as it is shown. -/
def event? (record : LogRecord) : Option LifecycleEvent :=
  eventOfShown? record.message record.fields

/-- The address that a record shows. -/
abbrev address? : LogRecord → Option String
  | created address | opening _ address _ | handshakeCompleted address _ => some address
  | _ => none

theorem event?_eq (record : LogRecord) : record.event? =
    match record with
    | opening generation _ trigger => some (.connecting generation trigger)
    | flushed generation count => some (.opened generation count)
    | reconnectFailed generation error _ => some (.connectFailed generation .send error)
    | attemptFailed generation error _ trigger => some (.connectFailed generation trigger error)
    | linkClosed generation status => some (.closed generation status)
    | writeFailed generation error _ => some (.closed generation (.abnormal error))
    | reset discarded => some (.reset discarded)
    | _ => none := by
  cases record with
  | linkClosed generation status =>
    by_cases h : status.isNormal = true <;>
      simp [event?, eventOfShown?, message, fields, h, List.lookup_cons, FieldValue.number?,
        FieldValue.text?]
  | _ =>
    simp [event?, eventOfShown?, message, fields, List.lookup_cons, FieldValue.number?,
      FieldValue.text?, CloseStatus.abnormal, CloseStatus.abnormalCode]

variable {record : LogRecord} {event : LifecycleEvent} {generation : Nat}

/-- The loss of a link is a warning, unless the peer has closed it cleanly. -/
theorem level_of_closed {status : CloseStatus}
    (h : record.event? = some (.closed generation status)) :
    record.level = if status.code = 1000 then .info else .warn := by
  rw [event?_eq] at h
  cases record with
  | linkClosed _ closed =>
    obtain ⟨-, rfl⟩ := LifecycleEvent.closed.inj (Option.some.inj h)
    simp [level, CloseStatus.isNormal, CloseStatus.normalCode]
  | writeFailed =>
    obtain ⟨-, rfl⟩ := LifecycleEvent.closed.inj (Option.some.inj h)
    rfl
  | _ => simp at h

theorem level_of_connectFailed {trigger : Trigger} {error : String}
    (h : record.event? = some (.connectFailed generation trigger error)) :
    record.level = .warn := by
  rw [event?_eq] at h
  cases record with
  | reconnectFailed | attemptFailed => rfl
  | _ => simp at h

theorem rank_le_of_event? (h : record.event? = some event) :
    record.level.rank ≤ Level.debug.rank := by
  cases event with
  | closed =>
    rw [level_of_closed h]
    split <;> decide
  | connectFailed =>
    rw [level_of_connectFailed h]
    decide
  | _ => cases record <;> simp_all [event?_eq, level, Level.rank]

theorem filterMap_event?_keep (records : List LogRecord) :
    (keep .debug records).filterMap event? = records.filterMap event? := by
  induction records with
  | nil => rfl
  | cons record rest ih =>
    rw [keep] at ih ⊢
    rw [List.filter_cons]
    cases hevent : record.event? with
    | none => split <;> simp [hevent, ih]
    | some event => simp [hevent, rank_le_of_event? hevent, ih]

end LogRecord

/-! ## What is logged -/

namespace Effect

/-- What a view sees of an effect that logs. -/
abbrev shown? {β : Type} (view : LogRecord → Option β) : Effect → Option β
  | log record => view record
  | _ => none

/-- What is logged, as it is seen by a view. -/
abbrev shown {β : Type} (view : LogRecord → Option β) (effects : List Effect) : List β :=
  seen (shown? view) effects

theorem shown_eq {β : Type} (view : LogRecord → Option β) (effects : List Effect) :
    shown view effects = (records effects).filterMap view := by
  have hshown (effect : Effect) : shown? view effect = effect.record?.bind view := by
    cases effect <;> rfl
  rw [shown, records, seen, seen, List.filterMap_filterMap]
  exact congrArg (effects.filterMap ·) (funext hshown)

end Effect

namespace Manager

open Effect

section Parts

variable (m : Manager)

/-- What is told once a writer has been closed. A link that was lost has been told of before. -/
theorem shown_event?_resume (rest : Resume) :
    shown LogRecord.event? (m.resume rest).2 =
      match rest with
      | .linkLost .. | .nothing => []
      | .linkClosed status => [.closed m.generation status]
      | .reset _ | .shutdown => [.reset m.queue.length]
      | .attempt trigger => [.connecting (m.generation + 1) trigger] := by
  cases rest with
  | linkLost error draining =>
    cases draining <;> simp [resume, settleLost, LogRecord.event?_eq]
  | _ => simp [resume, settleClosed, settleReset, LogRecord.event?_eq]

theorem shown_address?_resume (rest : Resume) :
    ∀ address ∈ shown LogRecord.address? (m.resume rest).2, address = m.url := by
  cases rest with
  | linkLost error draining => cases draining <;> simp [resume, settleLost]
  | _ => simp [resume, settleClosed, settleReset]

end Parts

/-! ### One step -/

/-- The event that was logged and is not published yet: while the writer of a link that was lost is
closed, the loss is known from the log only. -/
def unannounced (m : Manager) : List LifecycleEvent :=
  match m.activity with
  | .closing _ (.linkLost error _) => [.closed m.generation (.abnormal error.message)]
  | _ => []

variable {m : Manager} {input : Input} {reaction : Reaction}

theorem unannounced_eq_nil (finished : ¬m.Busy) : m.unannounced = [] := by
  cases busy : m.activity with
  | ready | ended | writing | draining => simp [unannounced, busy]
  | closing => exact absurd (by simp [Busy, busy]) finished

@[simp]
theorem unannounced_resume (rest : Resume) : (m.resume rest).1.unannounced = [] :=
  unannounced_eq_nil (m.not_busy_resume rest)

@[simp]
theorem unannounced_beginAttempt (trigger : Trigger) :
    (m.beginAttempt trigger).1.unannounced = [] := rfl

theorem unannounced_of_closing {generation : Nat} {rest : Resume}
    (busy : m.activity = .closing generation rest) :
    m.unannounced =
      match rest with
      | .linkLost error _ => [.closed m.generation (.abnormal error.message)]
      | _ => [] := by
  cases rest <;> simp [unannounced, busy]

theorem event?_closeRecord (generation : Nat) (outcome : CloseOutcome) :
    (closeRecord generation outcome).event? = none := by
  cases outcome <;> simp [closeRecord, LogRecord.event?_eq]

/-- A step logs what it publishes, but for the loss of a link, which is logged before the writer is
closed and published after that. -/
theorem Turn.shown_event (turn : Turn m input reaction) :
    m.unannounced ++ shown LogRecord.event? reaction.2 =
      events reaction.2 ++ reaction.1.unannounced := by
  cases turn with
  | called _ ready | summoned _ ready =>
    -- nothing is under way, so nothing was left to publish
    simp [unannounced_eq_nil (m := m) (by simp [Busy, ready]), LogRecord.event?_eq]
  | failed _ ready | failedRetrying _ ready =>
    -- the record names what started the attempt, and may be one of two kinds
    cases htrigger : m.trigger <;>
      simp [unannounced, ready, failureRecord, beginAttempt, htrigger, LogRecord.event?_eq]
  | dismissed order ready =>
    cases order <;> cases hattempting : m.attempting <;>
      simp [unannounced_eq_nil (m := m) (by simp [Busy, ready]), shown_event?_resume,
        events_resume, LogRecord.event?_eq]
  | dismissing order =>
    cases order <;> simp_all [unannounced, LogRecord.event?_eq]
  | released generation rest outcome busy =>
    cases rest <;>
      simp [unannounced_of_closing busy, shown_event?_resume, events_resume, event?_closeRecord]
  | _ => simp_all [unannounced, LogRecord.event?_eq]

/-- A manager shows no address but its own. -/
theorem Turn.shown_address (turn : Turn m input reaction) :
    ∀ address ∈ shown LogRecord.address? reaction.2, address = m.url := by
  cases turn with
  | failed | failedRetrying => cases htrigger : m.trigger <;> simp [failureRecord, htrigger]
  | dismissed order ready =>
    have hresume := shown_address?_resume { m with attempting := false }
    cases order <;> cases hattempting : m.attempting <;> simpa [hattempting] using hresume _
  | dismissing order => cases order <;> simp
  | released generation rest outcome =>
    have hresume := m.shown_address?_resume rest
    cases outcome <;> simpa [closeRecord] using hresume
  | _ => simp

end Manager

namespace Ensemble

open Effect Manager

variable {e mid next last : Ensemble} {move : Move} {moves : List Move}
  {effects first later : List Effect} {reaction : Ensemble × List Effect}

/-! ## What all parties log -/

/-- Tasks and handles tell of no event and show no address. -/
theorem Moved.silent (moved : e.Moved move reaction) (unseen : move.isSeen = false) :
    events reaction.2 = [] ∧
      ∀ record ∈ records reaction.2, record.event? = none ∧ record.address? = none := by
  have orphaned (attempt : Attempt) (result : Except Failure LinkId) (number : Nat) :
      events ((e.withoutAttempt number).endAttempt attempt result).2 = [] ∧
        ∀ record ∈ records ((e.withoutAttempt number).endAttempt attempt result).2,
          record.event? = none ∧ record.address? = none := by
    rw [endAttempt, post]
    split <;> simp [records, record?, event?, LogRecord.event?_eq, LogRecord.address?]
  cases moved with
  | refused command =>
    cases command <;>
      simp [refuse, records, record?, event?, LogRecord.event?_eq, LogRecord.address?]
  | answered number result attempt | reported number result attempt =>
    exact orphaned attempt result number
  | timedOut number attempt => exact orphaned attempt _ number
  | passed link event task =>
    cases hpresent : e.present <;>
      simp [passOn, LinkReader.pass, hpresent, records, record?, event?, LogRecord.event?_eq,
        LogRecord.address?]
  | submitted | detached | elapsed | collapsed | called | completed | vanished | fastened =>
    simp [records]
  | _ => simp [Move.isSeen] at unseen

/-- What is logged between two moments tells what is published, and shows the one address that the
manager knows. -/
structure Tells (e next : Ensemble) (effects : List Effect) : Prop where
  sound : next.manager.Sound
  url_eq : next.manager.url = e.manager.url
  shown_event : e.manager.unannounced ++ shown LogRecord.event? effects =
    events effects ++ next.manager.unannounced
  shown_address : ∀ address ∈ shown LogRecord.address? effects, address = e.manager.url

theorem Tells.trans (hfirst : e.Tells mid first) (hlater : mid.Tells next later) :
    e.Tells next (first ++ later) where
  sound := hlater.sound
  url_eq := hlater.url_eq.trans hfirst.url_eq
  shown_event := by
    calc e.manager.unannounced ++ shown LogRecord.event? (first ++ later)
      _ = (e.manager.unannounced ++ shown LogRecord.event? first) ++
          shown LogRecord.event? later := by simp
      _ = events first ++ (mid.manager.unannounced ++ shown LogRecord.event? later) := by
          rw [hfirst.shown_event, List.append_assoc]
      _ = events (first ++ later) ++ next.manager.unannounced := by
          rw [hlater.shown_event]
          simp
  shown_address address hmem := by
    rw [shown, seen_append, List.mem_append] at hmem
    obtain hmem | hmem := hmem
    · exact hfirst.shown_address address hmem
    · exact (hlater.shown_address address hmem).trans hfirst.url_eq

theorem Moved.tells (moved : e.Moved move reaction) (hsound : e.manager.Sound) :
    e.Tells reaction.1 reaction.2 := by
  obtain ⟨before, input, -, takes, rfl⟩ | ⟨unseen, elsewhere⟩ := moved.takes_or_elsewhere
  · have hturn := hsound.turn input
    have hmanager : (before.feed input).1.manager = (e.manager.step input).1 := by
      rw [feed_manager, takes.manager_eq]
    have heffects : (before.feed input).2 = (e.manager.step input).2 := by
      rw [feed_snd, takes.manager_eq]
    constructor
    · rw [hmanager]
      exact hsound.step input
    · rw [hmanager]
      exact hturn.url_eq
    · rw [hmanager, heffects]
      exact hturn.shown_event
    · rw [heffects]
      exact hturn.shown_address
  · obtain ⟨hevents, hrecords⟩ := moved.silent unseen
    have unshown {β : Type} {view : LogRecord → Option β}
        (hview : ∀ record ∈ records reaction.2, view record = none) :
        shown view reaction.2 = [] := by
      rw [shown_eq, List.filterMap_eq_nil_iff]
      exact hview
    constructor
    · rw [elsewhere.manager_eq]
      exact hsound
    · rw [elsewhere.manager_eq]
    · rw [hevents, unshown fun record hmem => (hrecords record hmem).1, elsewhere.manager_eq]
      simp
    · rw [unshown fun record hmem => (hrecords record hmem).2]
      simp

theorem tells_of_run (hsound : e.manager.Sound) (hrun : e.run moves = some (last, effects)) :
    e.Tells last effects := by
  induction moves generalizing e effects with
  | nil =>
    obtain ⟨rfl, rfl⟩ := Prod.mk.inj (Option.some.inj hrun)
    exact ⟨hsound, rfl, by simp, by simp⟩
  | cons move rest ih =>
    obtain ⟨next, first, later, hmove, hrest, rfl⟩ := exists_of_run_cons hrun
    have hnext := (moved hmove).tells hsound
    exact hnext.trans (ih hnext.sound hrest)

variable {settings : Settings}

/-- A manager keeps to the address of its endpoint, and no other one is logged. -/
theorem address_of_run (hrun : (ofSettings settings).run moves = some (last, effects)) :
    last.manager.url = settings.endpoint.url ∧
      ∀ record ∈ records effects, ∀ address ∈ record.address?,
        address = settings.endpoint.url := by
  have htells := tells_of_run (sound_new settings.endpoint.url) hrun
  refine ⟨htells.url_eq, fun record hmem address haddress => htells.shown_address address ?_⟩
  rw [shown_eq]
  exact List.mem_filterMap.mpr ⟨record, hmem, haddress⟩

/-- **The log and the published events tell the same.** What the log of a run tells at the debug
level are the events that were published, in the same order, and at most one more: while the writer
of a link that was lost is closed, the loss is logged and not published yet. A loss is a warning
unless the peer has closed the link with the normal code, and so is every failed attempt. -/
theorem log_tells_events (hrun : (ofSettings settings).run moves = some (last, effects)) :
    let log := LogRecord.keep .debug (records effects)
    log.filterMap LogRecord.event? = events effects ++ last.manager.unannounced ∧
      (¬last.manager.Busy → log.filterMap LogRecord.event? = events effects) ∧
      ∀ record ∈ log,
        (∀ generation status, record.event? = some (.closed generation status) →
          record.level = if status.code = 1000 then .info else .warn) ∧
        (∀ generation trigger error,
          record.event? = some (.connectFailed generation trigger error) →
            record.level = .warn) ∧
        ∀ generation error queued, record = .writeFailed generation error queued →
          record.level = .warn := by
  intro log
  have htold : log.filterMap LogRecord.event? = events effects ++ last.manager.unannounced := by
    rw [LogRecord.filterMap_event?_keep, ← shown_eq]
    exact (tells_of_run (sound_new settings.endpoint.url) hrun).shown_event
  refine ⟨htold, fun finished => ?_, fun record _ => ⟨?_, ?_, ?_⟩⟩
  · rw [htold, unannounced_eq_nil finished, List.append_nil]
  · exact fun _ _ => LogRecord.level_of_closed
  · exact fun _ _ _ => LogRecord.level_of_connectFailed
  · rintro generation error queued rfl
    rfl

/-- A message starts an attempt in the background, which fails; only the log and the events tell of
that. The next link is lost while the queue is written to it. -/
theorem log_tells_events_unattended :
    let start := ofSettings {}
    let moves : List Move := [.submit (.send (.text "a")), .handle [], .callOpen false,
      .answerOpen 0 (.error .connectTimeout), .handle [], .submit (.connect 0), .handle [],
      .callOpen false, .answerOpen 1 (.ok 7), .handle [], .written (.error .connectionClosed),
      .closed (.ok ())]
    ∃ last effects, start.run moves = some (last, effects) ∧ ¬last.manager.Busy ∧
      (LogRecord.keep .debug (records effects)).filterMap LogRecord.event? =
        [.connecting 1 .send, .connectFailed 1 .send "Connection attempt timed out",
          .connecting 2 .caller, .closed 2 (.abnormal "Connection closed")] := by
  intro start moves
  have hpossible : (start.run moves).isSome = true := by decide +kernel
  obtain ⟨⟨last, effects⟩, hrun⟩ := Option.isSome_iff_exists.mp hpossible
  have hend : (start.run moves).map (fun result =>
      (result.1.manager.activity, events result.2)) =
        some (.ready, [.connecting 1 .send, .connectFailed 1 .send "Connection attempt timed out",
          .connecting 2 .caller, .closed 2 (.abnormal "Connection closed")]) := by
    decide +kernel
  rw [hrun] at hend
  obtain ⟨hready, hevents⟩ := Prod.mk.inj (Option.some.inj hend)
  have finished : ¬last.manager.Busy := fun busy => busy.1 hready
  exact ⟨last, effects, hrun, finished, ((log_tells_events hrun).2.1 finished).trans hevents⟩

end Ensemble

end PersistentLink
