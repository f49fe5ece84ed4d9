import PersistentLink.Proofs.Manager.Books

/-!
# What comes of inbound messages

A manager starts the reader of a link and gives it up, and shows the messages that come in to its
observers. A message is shown to all who are registered at the time, whichever of them fail on it.

## Main definitions

- `Reading`, `Effect.readings`: what is done about the reading of links
- `Delivery`, `Manager.deliveries`: the messages that a run shows, and to whom
- `Manager.Reads`: all that a step does about the reading of links, case by case
- `Manager.Deaf`: an event that came now would be stale when it is handled

## Main results

- `Manager.Turn.reads`: a step is one of the cases
- `Manager.Turn.attends`: while messages may wait, only an order makes the manager deaf

## Design notes

Who is registered is told from the commands that were handled, and not from the books.
-/

namespace PersistentLink

/-- The observer that a command registers. -/
def Command.observer? : Command → Option ObserverId
  | addObserver observer => some observer
  | _ => none

/-- Whether an input comes from those who give commands. -/
def Input.isOrder : Input → Bool
  | command _ | commandsEnded => true
  | _ => false

/-- What is done about the reading of links. -/
inductive Reading
  /-- a reader task starts -/
  | started (link : LinkId) (generation : Nat)
  /-- the reader task is given up -/
  | abandoned
  /-- a message is about to be shown -/
  | announced (size : Nat) (observers : Nat)
  /-- an observer is shown a message -/
  | shown (observer : ObserverId) (payload : Payload)
  /-- an event is found to be stale -/
  | discarded (generation : Nat) (current : Nat)
  deriving DecidableEq, Repr

/-- Whether something is done about an event, and not about a reader task. -/
def Reading.isInbound : Reading → Bool
  | started .. | abandoned => false
  | announced .. | shown .. | discarded .. => true

/-- The call of an observer. -/
def Reading.call? : Reading → Option (ObserverId × Payload)
  | shown observer payload => some (observer, payload)
  | _ => none

namespace Effect

/-- What an effect is to the reading of links. -/
abbrev reading? : Effect → Option Reading
  | .startReader link generation => some (.started link generation)
  | .abandonReader => some .abandoned
  | .log (.dispatching size observers) => some (.announced size observers)
  | .log (.staleLinkEvent generation current) => some (.discarded generation current)
  | .observe observer payload => some (.shown observer payload)
  | _ => none

/-- The call of an observer. -/
abbrev observation? : Effect → Option (ObserverId × Payload)
  | .observe observer payload => some (observer, payload)
  | _ => none

/-- What is done about the reading of links, in order. -/
abbrev readings (effects : List Effect) : List Reading :=
  seen reading? effects

/-- What is done about the events of links, in order. -/
def inbounds (effects : List Effect) : List Reading :=
  (readings effects).filter Reading.isInbound

/-- The calls of observers, in order. -/
abbrev observations (effects : List Effect) : List (ObserverId × Payload) :=
  seen observation? effects

variable {effects first second : List Effect}

theorem inbounds_append : inbounds (first ++ second) = inbounds first ++ inbounds second := by
  rw [inbounds, readings, seen_append, List.filter_append]
  rfl

/-- The calls of observers are part of what is done about the events of links. -/
theorem observations_eq (effects : List Effect) :
    observations effects = (inbounds effects).filterMap Reading.call? := by
  have hcalls (effect : Effect) : effect.observation? =
      effect.reading?.bind fun reading =>
        if reading.isInbound then reading.call? else none := by
    cases effect with
    | log record => cases record <;> rfl
    | _ => rfl
  rw [inbounds, readings, seen, List.filterMap_filter, List.filterMap_filterMap]
  exact congrArg (effects.filterMap ·) (funext hcalls)

theorem mem_inbounds_discarded {generation current : Nat}
    (h : .log (.staleLinkEvent generation current) ∈ effects) :
    .discarded generation current ∈ inbounds effects :=
  List.mem_filter.mpr ⟨List.mem_filterMap.mpr ⟨_, h, rfl⟩, rfl⟩

end Effect

/-! ## Deliveries -/

/-- A message that is shown to observers. -/
structure Delivery where
  /-- generation of the link that brought the message -/
  generation : Nat
  payload : Payload
  /-- the observers that are registered, in order of registration -/
  observers : List ObserverId
  deriving DecidableEq, Repr

namespace Delivery

/-- The message, and the generation of the link that brought it. -/
def message (delivery : Delivery) : Nat × Payload :=
  (delivery.generation, delivery.payload)

/-- Every observer is called with the message. -/
def calls (delivery : Delivery) : List (ObserverId × Payload) :=
  delivery.observers.map (·, delivery.payload)

/-- What is done to show the message: it is announced, and every observer is called with it. -/
def readings (delivery : Delivery) : List Reading :=
  .announced delivery.payload.size delivery.observers.length ::
    delivery.observers.map (.shown · delivery.payload)

theorem isInbound_of_mem_readings {delivery : Delivery} {reading : Reading}
    (h : reading ∈ delivery.readings) :
    reading.isInbound = true ∧ ∀ generation current, reading ≠ .discarded generation current := by
  obtain rfl | hmem := List.mem_cons.mp h
  · exact ⟨rfl, by simp⟩
  · obtain ⟨observer, -, rfl⟩ := List.mem_map.mp hmem
    exact ⟨rfl, by simp⟩

theorem filterMap_call_readings (delivery : Delivery) :
    delivery.readings.filterMap Reading.call? = delivery.calls := by
  rw [readings, List.filterMap_cons, List.filterMap_map, calls, ← List.filterMap_eq_map']
  rfl

end Delivery

namespace Manager

open Effect

/-- The message of a link that an input brings, and the generation of the link, if the message is
shown: the manager has nothing else to do, and has not gone on to a later generation. -/
def brought (m : Manager) : Input → Option (Nat × Payload)
  | .linkEvent generation (.message payload) _ =>
    if m.activity = .ready ∧ generation = m.generation then some (generation, payload) else none
  | _ => none

/-- The observer that a step registers. -/
def enrolled (m : Manager) (input : Input) : Option ObserverId :=
  (m.heard input).bind Command.observer?

/-- The messages that a run shows, in order, each with the observers that were registered before
the run and by the commands handled up to then. -/
def deliveries (m : Manager) (registered : List ObserverId) : List Input → List Delivery
  | [] => []
  | input :: rest =>
    ((m.brought input).map fun message => ⟨message.1, message.2, registered⟩).toList ++
      (m.step input).1.deliveries (registered ++ (m.enrolled input).toList) rest

section Parts

variable (m : Manager)

theorem reading?_failureRecord (error : Failure) :
    (Effect.log (m.failureRecord error)).reading? = none := by
  cases htrigger : m.trigger <;> rw [failureRecord, htrigger]

@[simp]
theorem readings_resume (rest : Resume) : readings (m.resume rest).2 = [] := by
  cases rest with
  | linkLost error draining => cases draining <;> simp [resume, settleLost, reading?]
  | _ => simp [resume, settleClosed, settleReset, reading?]

/-- A message is announced and shown to every observer, whichever of them fail. -/
@[simp]
theorem readings_dispatch (payload : Payload) (panicking : List ObserverId) :
    readings (m.dispatch payload panicking) =
      Delivery.readings ⟨m.generation, payload, m.observers⟩ := by
  have hshown (entry : ObserverId × Nat) :
      readings (.observe entry.1 payload ::
        if entry.1 ∈ panicking then [.log (.observerPanicked entry.2)] else []) =
        [.shown entry.1 payload] := by
    split <;> rfl
  rw [dispatch, readings, seen_cons, Delivery.readings]
  refine congrArg (Reading.announced payload.size m.observers.length :: ·) ?_
  calc readings (m.observers.zipIdx.flatMap _)
      = m.observers.zipIdx.flatMap fun entry => [.shown entry.1 payload] := by
        rw [readings, seen, List.filterMap_flatMap]
        exact congrArg (m.observers.zipIdx.flatMap ·) (funext hshown)
    _ = (m.observers.zipIdx.map Prod.fst).map (.shown · payload) := by
        rw [← List.map_eq_flatMap, List.map_map]
        rfl
    _ = m.observers.map (.shown · payload) := by
        rw [List.zipIdx_map_fst]

end Parts

/-! ## One step -/

/-- What a step does about the reading of links. -/
inductive Reads (m : Manager) (input : Input) (reaction : Reaction) : Prop
  -- a message is shown
  | shown (payload : Payload) (panicking : List ObserverId)
      (hinput : input = .linkEvent m.generation (.message payload) panicking)
      (ready : m.activity = .ready) (books_eq : reaction.1 = m)
      (hreadings : readings reaction.2 =
        Delivery.readings ⟨m.generation, payload, m.observers⟩)
  -- an event comes from an earlier link
  | discarded (generation : Nat) (event : LinkEvent) (panicking : List ObserverId)
      (hinput : input = .linkEvent generation event panicking)
      (stale : generation ≠ m.generation)
  -- the attempt has opened a link, whose reader starts
  | started (link : LinkId) (connecting : m.phase = .connecting) (unread : m.reader = none)
      (unbrought : m.brought input = none) (generation_eq : reaction.1.generation = m.generation)
      (reader_eq : reaction.1.reader = some link)
      (hreadings : readings reaction.2 = [.started link m.generation])
  -- the reader is given up
  | abandoned (unbrought : m.brought input = none) (reader_eq : reaction.1.reader = none)
      (hreadings : readings reaction.2 = [.abandoned])
  -- the link has closed, which ends its reader
  | ended (status : CloseStatus) (panicking : List ObserverId)
      (hinput : input = .linkEvent m.generation (.closed status) panicking)
      (reader_eq : reaction.1.reader = none) (hreadings : readings reaction.2 = [])
  -- the reader, if there is one, goes on under the same generation
  | silent (unbrought : m.brought input = none) (reader_eq : reaction.1.reader = m.reader)
      (generation_eq : m.reader = none ∨ reaction.1.generation = m.generation)
      (hreadings : readings reaction.2 = [])

/-- An event that came now would be stale when it is handled: the manager goes on to another
generation before it handles anything else, or waits for an attempt. -/
def Deaf (m : Manager) : Prop :=
  m.phase = .connecting ∨
    ∃ generation rest, m.activity = .closing generation rest ∧
      ((∃ call, rest = .reset call) ∨ rest = .shutdown)

variable {m : Manager} {input : Input} {reaction : Reaction}

theorem brought_of_stray (stray : m.fits input = false) : m.brought input = none := by
  unfold brought
  split
  · rename_i generation payload panicking
    by_cases ready : m.activity = .ready
    · simp [fits, ready] at stray
    · rw [if_neg fun h => ready h.1]
  · rfl

@[simp]
theorem resume_reader (m : Manager) (rest : Resume) : (m.resume rest).1.reader = m.reader := by
  cases rest <;> rfl

/-- Whoever reads a link does so while the connection is live. -/
theorem Sound.not_connecting_of_reader (h : m.Sound) (read : m.reader ≠ none) :
    m.phase ≠ .connecting := by
  have hsettled (settled : m.Settled) : m.phase ≠ .connecting := fun connecting =>
    read (settled.unlinked (by rw [connecting]; decide)).2
  cases busy : m.activity with
  | ready => exact hsettled (h.settled busy)
  | writing payload =>
    simp only [Sound, busy] at h
    exact hsettled h.1
  | draining payload flushed =>
    rw [(h.linked busy).phase_eq]
    decide
  | closing generation rest =>
    cases rest with
    | nothing =>
      simp only [Sound, busy] at h
      exact hsettled h
    | _ =>
      simp only [Sound, busy] at h
      exact absurd h.2.reader_eq read
  | ended => exact hsettled (h.settled_of_ended busy).1

/-- While a link is read no event of it would be stale. -/
theorem Sound.not_deaf_of_reader (h : m.Sound) (read : m.reader ≠ none) : ¬m.Deaf := by
  rintro (connecting | ⟨generation, rest, busy, hrest⟩)
  · exact h.not_connecting_of_reader read connecting
  · obtain ⟨call, rfl⟩ | rfl := hrest <;>
      exact read (by simp only [Sound, busy] at h; exact h.2.reader_eq)

/-- What a step does about the reading of links is one of the cases. -/
theorem Turn.reads (turn : Turn m input reaction) (hsound : m.Sound) :
    m.Reads input reaction := by
  have unread (ready : m.activity = .ready) (hphase : m.phase ≠ .live) : m.reader = none :=
    ((hsound.settled ready).unlinked hphase).2
  cases turn with
  | received payload panicking ready =>
    exact .shown payload panicking rfl ready rfl (by simp)
  | staleEvent generation event panicking ready stale =>
    exact .discarded generation event panicking rfl stale
  | opened link ready connecting | openedDraining link _ _ ready connecting =>
    exact .started link connecting (unread ready (by rw [connecting]; decide)) rfl rfl rfl
      (by simp [reading?])
  | dismissing order =>
    cases order <;> exact .abandoned rfl rfl (by simp [reading?])
  | writeLost | drainLost => exact .abandoned rfl rfl (by simp [reading?])
  | peerClosed status panicking => exact .ended status panicking rfl rfl (by simp [reading?])
  | dismissed order ready unlinked =>
    cases order <;>
      exact .silent rfl rfl (.inl (unread ready unlinked)) (by simp [reading?, apply_ite])
  | called _ ready free | summoned _ ready free =>
    exact .silent rfl rfl (.inl (unread ready (mayStartAttempt_iff.mp free).1))
      (by simp [reading?])
  | failed =>
    exact .silent rfl rfl (.inr rfl) (by simp [reading?_failureRecord])
  | failedRetrying _ ready connecting =>
    exact .silent rfl rfl (.inl (unread ready (by rw [connecting]; decide)))
      (by simp [reading?_failureRecord])
  | released generation rest outcome busy =>
    have hgeneration : m.reader = none ∨ (m.resume rest).1.generation = m.generation := by
      cases rest with
      | nothing => exact .inr rfl
      | _ =>
        simp only [Sound, busy] at hsound
        exact .inl hsound.2.reader_eq
    refine .silent rfl (m.resume_reader rest) hgeneration ?_
    cases outcome <;> simp [reading?, closeRecord]
  | ignored _ stray => exact .silent (brought_of_stray stray) rfl (.inr rfl) rfl
  | _ => exact .silent rfl rfl (.inr rfl) (by simp [reading?])

/-- While messages may wait, nothing but an order makes the manager go on to another generation or
wait for an attempt. -/
theorem Turn.attends (turn : Turn m input reaction) (hsound : m.Sound) (heeds : ¬m.Deaf)
    (unordered : input.isOrder = false) :
    reaction.1.generation = m.generation ∧ ¬reaction.1.Deaf := by
  obtain ⟨hphase, hactivity⟩ := not_or.mp heeds
  cases turn with
  | dismissing order | dismissed order => cases order <;> simp [Input.isOrder] at unordered
  | opened _ _ connecting | openedDraining _ _ _ _ connecting | failed _ _ connecting
      | failedRetrying _ _ connecting => exact absurd connecting hphase
  | released generation rest outcome busy =>
    cases rest with
    | attempt trigger => exact absurd busy (hsound.not_closing_for_attempt generation trigger)
    | reset call => exact absurd ⟨generation, _, busy, .inl ⟨call, rfl⟩⟩ hactivity
    | shutdown => exact absurd ⟨generation, _, busy, .inr rfl⟩ hactivity
    | linkLost | linkClosed => simp [Deaf, resume, settleLost, settleClosed]
    | nothing => simp [Deaf, resume, hphase]
  | staleFailure | received | alreadyDown | staleEvent | ignored => exact ⟨rfl, heeds⟩
  | staleSuccess | peerClosed | wrote | writeLost | drained | drainedOne | drainLost =>
    simp [Deaf, hphase]
  | _ => simp [Input.isOrder] at unordered

/-- A step registers the observer that the command it handles asks for. -/
theorem Turn.observers_eq (turn : Turn m input reaction) :
    reaction.1.observers = m.observers ++ (m.enrolled input).toList := by
  cases turn with
  | registered observer ready => simp [enrolled, heard, ready, Command.observer?]
  | dismissed order | dismissing order =>
    cases order <;> simp [enrolled, heard, *, Command.observer?, resume, settleReset]
  | released _ rest _ busy =>
    cases rest <;>
      simp [enrolled, heard, busy, resume, settleLost, settleClosed, settleReset, beginAttempt]
  | ignored _ stray => simp [enrolled, heard_of_stray stray]
  | _ => simp [enrolled, heard, *, Command.observer?, beginAttempt]

/-! ## Runs -/

theorem Sound.observers_run (h : m.Sound) (inputs : List Input) :
    (m.run inputs).1.observers =
      m.observers ++ (m.handled inputs).filterMap Command.observer? := by
  induction inputs using List.reverseRecOn with
  | nil => simp
  | append_singleton inputs input ih =>
    rw [run_concat_fst, ((h.run inputs).turn input).observers_eq, ih, handled_concat,
      List.filterMap_append, List.append_assoc, enrolled]
    cases (m.run inputs).1.heard input with
    | none => rfl
    | some command => cases command <;> rfl

theorem deliveries_append (m : Manager) (registered : List ObserverId) (past later : List Input) :
    m.deliveries registered (past ++ later) = m.deliveries registered past ++
      (m.run past).1.deliveries
        (registered ++ (m.handled past).filterMap Command.observer?) later := by
  induction past generalizing m registered with
  | nil => simp [deliveries]
  | cons input rest ih =>
    have henrolled : (m.enrolled input).toList =
        (m.heard input).toList.filterMap Command.observer? := by
      rw [enrolled]
      cases m.heard input with
      | none => rfl
      | some command => cases command <;> rfl
    rw [List.cons_append, deliveries, ih, deliveries, run_cons, Reaction.after_fst, handled,
      List.filterMap_append, henrolled, List.append_assoc, List.append_assoc]

/-- The message that an input brings is shown to those who are registered. -/
theorem map_message_deliveries (m : Manager) (registered : List ObserverId) (input : Input) :
    (m.deliveries registered [input]).map Delivery.message = (m.brought input).toList := by
  cases hbrought : m.brought input <;> simp [deliveries, hbrought, Delivery.message]

end Manager

end PersistentLink
