import PersistentLink.Proofs.Manager.Inbound

/-!
# Looking on changes nothing

A snapshot only reads the books, and an observer is only shown messages. So when requests for
snapshots and registrations of observers are left out of a run, the connection takes the same
course: the same is done with links, published and answered, and the books are the same but for the
observers.

## Main definitions

- `Input.looksOn`: the inputs that may be left out
- `Effect.acts`: what is done about the connection
- `Manager.watchedBy`, `Reaction.Follows`: the same books but for the observers
- `Manager.whole`, `Manager.kept`: all inputs, and those that are not left out

## Main results

- `Manager.step_follows`: a step with other observers
- `Manager.Turn.of_looksOn`: a step that may be left out
- `Manager.onlookers_change_nothing`: two runs, in one of which some inputs are left out
-/

namespace PersistentLink

/-- Whether an input asks for a snapshot. -/
def Input.asksForSnapshot : Input → Bool
  | command (.snapshot _) => true
  | _ => false

/-- Whether an input asks for a snapshot or registers an observer. -/
def Input.looksOn : Input → Bool
  | command (.snapshot _) | command (.addObserver _) => true
  | _ => false

namespace Effect

/-- Whether something is done about the connection. To log, to report and to show a message is to
tell of it only. -/
def isAct : Effect → Bool
  | log _ | report .. | observe .. => false
  | _ => true

/-- What is done about the connection, in order. -/
def acts (effects : List Effect) : List Effect :=
  effects.filter isAct

@[simp]
theorem acts_append (first second : List Effect) :
    acts (first ++ second) = acts first ++ acts second :=
  List.filter_append ..

end Effect

namespace Manager

open Effect

/-- The books with other observers. -/
def watchedBy (m : Manager) (observers : List ObserverId) : Manager :=
  { m with observers }

end Manager

namespace Reaction

/-- The reaction with other observers in the books. -/
def watchedBy (reaction : Reaction) (observers : List ObserverId) : Reaction :=
  (reaction.1.watchedBy observers, reaction.2)

/-- The same is done about the connection, and the books are the same but for the observers. -/
structure Follows (reaction other : Reaction) : Prop where
  books_eq : reaction.1 = other.1.watchedBy reaction.1.observers
  acts_eq : Effect.acts reaction.2 = Effect.acts other.2

theorem follows_of_eq {reaction other : Reaction} {observers : List ObserverId}
    (h : reaction = other.watchedBy observers) : reaction.Follows other := by
  rw [h]
  exact ⟨rfl, rfl⟩

end Reaction

namespace Manager

open Effect

variable (m : Manager) (observers : List ObserverId)

/-! ## The handlers -/

theorem resume_watchedBy (rest : Resume) :
    (m.watchedBy observers).resume rest = (m.resume rest).watchedBy observers := by
  cases rest <;> rfl

theorem release_watchedBy (rest : Resume) :
    (m.watchedBy observers).release rest = (m.release rest).watchedBy observers := by
  obtain ⟨url, phase, generation, trigger, writer, reader⟩ := m
  cases writer <;> cases reader <;> cases rest <;> rfl

theorem writeFailed_watchedBy (error : Failure) (draining : Bool) :
    (m.watchedBy observers).writeFailed error draining =
      (m.writeFailed error draining).watchedBy observers := by
  rw [writeFailed, release_watchedBy]
  rfl

theorem drain_watchedBy (flushed : Nat) :
    (m.watchedBy observers).drain flushed = (m.drain flushed).watchedBy observers := by
  obtain ⟨url, phase, generation, trigger, writer, reader, attempting, queue⟩ := m
  cases queue with
  | nil => rfl
  | cons payload rest =>
    cases writer with
    | some link => rfl
    | none => exact writeFailed_watchedBy _ observers .connectionClosed true

theorem writeNow_watchedBy (payload : Payload) :
    (m.watchedBy observers).writeNow payload = (m.writeNow payload).watchedBy observers := by
  have hlost := writeFailed_watchedBy { m with queue := payload :: m.queue } observers
    .connectionClosed false
  obtain ⟨url, phase, generation, trigger, writer⟩ := m
  cases writer with
  | some link => rfl
  | none => exact hlost

theorem connect_watchedBy (call : CallId) :
    (m.watchedBy observers).connect call = (m.connect call).watchedBy observers := by
  have hrelease := release_watchedBy { m with waiters := m.waiters ++ [⟨call, false, false⟩] }
    observers (.attempt .caller)
  obtain ⟨url, phase⟩ := m
  cases phase with
  | live | connecting => rfl
  | idle | down => exact hrelease

theorem send_watchedBy (payload : Payload) :
    (m.watchedBy observers).send payload = (m.send payload).watchedBy observers := by
  have hrelease := release_watchedBy { m with queue := m.queue ++ [payload] } observers
    (.attempt .send)
  have hnow := writeNow_watchedBy m observers payload
  obtain ⟨url, phase⟩ := m
  cases phase with
  | live => exact hnow
  | connecting => rfl
  | idle | down => exact congrArg (Reaction.after · _) hrelease

theorem reset_watchedBy (rest : Resume) :
    (m.watchedBy observers).reset rest = (m.reset rest).watchedBy observers :=
  congrArg (Reaction.after · _) (release_watchedBy { m with attempting := false } observers rest)

theorem attemptFailed_watchedBy (error : Failure) :
    (m.watchedBy observers).attemptFailed error =
      (m.attemptFailed error).watchedBy observers := by
  have hrelease := release_watchedBy
    { m with
      phase := .down
      waiters := (m.waiters.partition Waiter.isCarriedOver).1.map ({ · with retried := true }) }
    observers (.attempt .retry)
  cases hnobody : (m.waiters.partition Waiter.isCarriedOver).1.isEmpty with
  | true =>
    simp only [attemptFailed, watchedBy, hnobody, if_true]
    rfl
  | false =>
    simp only [attemptFailed, watchedBy, hnobody, Bool.false_eq_true, if_false]
    exact congrArg (Reaction.after · _) hrelease

theorem attemptFinished_watchedBy (generation : Nat) (result : Except Failure LinkId) :
    (m.watchedBy observers).attemptFinished generation result =
      (m.attemptFinished generation result).watchedBy observers := by
  have hgeneration : (m.watchedBy observers).generation = m.generation := rfl
  have hphase : (m.watchedBy observers).phase = m.phase := rfl
  rw [attemptFinished, attemptFinished, hgeneration, hphase]
  by_cases present : generation = m.generation ∧ m.phase = .connecting
  · rw [if_pos present, if_pos present]
    cases result with
    | ok link =>
      exact congrArg (Reaction.after · _) (drain_watchedBy
        { m with attempting := false, writer := some link, reader := some link, phase := .live }
        observers 0)
    | error error => exact attemptFailed_watchedBy { m with attempting := false } observers error
  · rw [if_neg present, if_neg present]
    cases result <;> rfl

theorem linkClosed_watchedBy (status : CloseStatus) :
    (m.watchedBy observers).linkClosed status = (m.linkClosed status).watchedBy observers := by
  have hrelease := release_watchedBy { m with reader := none } observers (.linkClosed status)
  obtain ⟨url, phase⟩ := m
  cases phase with
  | live => exact hrelease
  | _ => rfl

/-! ## A step -/

theorem acts_dispatch (payload : Payload) (panicking : List ObserverId) :
    acts (m.dispatch payload panicking) = [] := by
  rw [acts, List.filter_eq_nil_iff]
  intro effect hmem
  obtain ⟨observer, rfl⟩ | ⟨record, rfl, -⟩ := m.mem_dispatch hmem <;>
    simp [isAct]

/-- Messages are shown to other observers, which is no act. -/
theorem linkReported_follows (generation : Nat) (event : LinkEvent) (panicking : List ObserverId) :
    ((m.watchedBy observers).linkReported generation event panicking).Follows
      (m.linkReported generation event panicking) := by
  have hgeneration : (m.watchedBy observers).generation = m.generation := rfl
  unfold linkReported
  rw [hgeneration]
  by_cases present : generation = m.generation
  · rw [if_pos present, if_pos present]
    cases event with
    | message payload => exact ⟨rfl, (acts_dispatch ..).trans (acts_dispatch ..).symm⟩
    | closed status => exact Reaction.follows_of_eq (linkClosed_watchedBy m observers status)
  · rw [if_neg present, if_neg present]
    exact ⟨rfl, rfl⟩

theorem receive_follows (input : Input) :
    ((m.watchedBy observers).receive input).Follows (m.receive input) := by
  cases input with
  | command command =>
    cases command with
    | connect call =>
      exact Reaction.follows_of_eq
        (congrArg (Reaction.after · _) (connect_watchedBy m observers call))
    | send payload =>
      exact Reaction.follows_of_eq
        (congrArg (Reaction.after · _) (send_watchedBy m observers payload))
    | close call =>
      exact Reaction.follows_of_eq
        (congrArg (Reaction.after · _) (reset_watchedBy m observers (.reset call)))
    | addObserver | snapshot => exact ⟨rfl, rfl⟩
  | attemptFinished generation result =>
    exact Reaction.follows_of_eq (attemptFinished_watchedBy m observers generation result)
  | linkEvent generation event panicking => exact linkReported_follows m observers _ event panicking
  | commandsEnded =>
    exact Reaction.follows_of_eq
      (congrArg (Reaction.after · _) (reset_watchedBy m observers .shutdown))
  | written | closed => exact ⟨rfl, rfl⟩

theorem step_follows (input : Input) :
    ((m.watchedBy observers).step input).Follows (m.step input) := by
  have hreceive := receive_follows m observers input
  have hlost (payload : Payload) := writeFailed_watchedBy
    { m with queue := payload :: m.queue, activity := .ready } observers
  have hdrain := drain_watchedBy { m with activity := .ready } observers
  have hresume := resume_watchedBy m observers
  -- what is under way is decided first, so both steps open in the same case
  obtain ⟨url, phase, generation, trigger, writer, reader, attempting, queue, registered, waiters,
    activity⟩ := m
  cases activity with
  | ready => exact hreceive
  | writing payload =>
    cases input with
    | written result =>
      cases result with
      | ok => exact ⟨rfl, rfl⟩
      | error error => exact Reaction.follows_of_eq (hlost payload error false)
    | _ => exact ⟨rfl, rfl⟩
  | draining payload flushed =>
    cases input with
    | written result =>
      cases result with
      | ok => exact Reaction.follows_of_eq (hdrain (flushed + 1))
      | error error => exact Reaction.follows_of_eq (hlost payload error true)
    | _ => exact ⟨rfl, rfl⟩
  | closing generation rest =>
    cases input with
    | closed outcome =>
      exact Reaction.follows_of_eq (congrArg (Reaction.after · _) (hresume rest))
    | _ => exact ⟨rfl, rfl⟩
  | ended => cases input <;> exact ⟨rfl, rfl⟩

variable {m} {input : Input} {reaction : Reaction}

/-- An input that may be left out does nothing about the connection. -/
theorem Turn.of_looksOn (turn : Turn m input reaction) (h : input.looksOn = true) :
    m = reaction.1.watchedBy m.observers ∧ acts reaction.2 = [] := by
  cases turn with
  | registered | reported | ignored => exact ⟨rfl, rfl⟩
  | dismissing order | dismissed order => cases order <;> cases h
  | _ => cases h

/-- A request for a snapshot leaves the books as they are, and nothing is shown to observers. -/
theorem Turn.of_asksForSnapshot (turn : Turn m input reaction)
    (h : input.asksForSnapshot = true) : reaction.1 = m ∧ observations reaction.2 = [] := by
  cases turn with
  | reported | ignored => exact ⟨rfl, rfl⟩
  | dismissing order | dismissed order => cases order <;> cases h
  | _ => cases h

theorem reports_snapshot (ready : m.activity = .ready) (query : QueryId) :
    reports (m.step (.command (.snapshot query))).2 = [(query, m.snapshot)] := by
  cases m
  subst ready
  rfl

/-! ## Two runs -/

/-- The inputs of a list in which some are marked to be left out. -/
def whole (marked : List (Input × Bool)) : List Input :=
  marked.map (·.1)

/-- The inputs that are not left out. -/
def kept (marked : List (Input × Bool)) : List Input :=
  whole (marked.filter (·.2))

variable {marked : List (Input × Bool)} (url : String)

/-- Two runs are compared input by input, from the start. -/
theorem kept_induction {motive : List Input → List Input → Prop} {leaves : Input → Bool}
    (nil : motive [] [])
    (both : ∀ rest all input, motive rest all → motive (rest ++ [input]) (all ++ [input]))
    (left : ∀ rest all input, motive rest all → leaves input = true → motive rest (all ++ [input]))
    (h : ∀ entry ∈ marked, entry.2 = false → leaves entry.1 = true) :
    motive (kept marked) (whole marked) := by
  induction marked using List.reverseRecOn with
  | nil => exact nil
  | append_singleton marked entry ih =>
    obtain ⟨input, stays⟩ := entry
    rw [List.forall_mem_append] at h
    have hearlier := ih h.1
    have hwhole : whole (marked ++ [(input, stays)]) = whole marked ++ [input] := by simp [whole]
    rw [hwhole]
    cases stays with
    | true =>
      have hkept : kept (marked ++ [(input, true)]) = kept marked ++ [input] := by
        simp [kept, whole]
      rw [hkept]
      exact both _ _ input hearlier
    | false =>
      have hkept : kept (marked ++ [(input, false)]) = kept marked := by simp [kept, whole]
      rw [hkept]
      exact left _ _ input hearlier (h.2 _ List.mem_cons_self rfl)

theorem run_follows (looksOn : ∀ entry ∈ marked, entry.2 = false → entry.1.looksOn = true) :
    (run { url } (kept marked)).Follows (run { url } (whole marked)) := by
  refine kept_induction (motive := fun rest all => (run { url } rest).Follows (run { url } all))
    ⟨rfl, rfl⟩ ?both ?left looksOn
  case both =>
    rintro rest all input ⟨hbooks, hacts⟩
    have hstep := step_follows (run { url } all).1 (run { url } rest).1.observers input
    rw [← hbooks] at hstep
    constructor
    · simpa using hstep.books_eq
    · simp [hacts, hstep.acts_eq]
  case left =>
    -- the shorter run stays where it is
    rintro rest all input ⟨hbooks, hacts⟩ hlooks
    obtain ⟨hstill, hnone⟩ := ((sound_run url all).turn input).of_looksOn hlooks
    constructor
    · rw [run_concat_fst]
      rw [hstill] at hbooks
      exact hbooks
    · simp [hacts, hnone]

/-- If only requests for snapshots are left out, the books are the same, and the same is shown to
observers. -/
theorem run_kept_of_snapshots
    (unread : ∀ entry ∈ marked, entry.2 = false → entry.1.asksForSnapshot = true) :
    (run { url } (kept marked)).1 = (run { url } (whole marked)).1 ∧
      observations (run { url } (kept marked)).2 =
        observations (run { url } (whole marked)).2 := by
  refine kept_induction (motive := fun rest all => (run { url } rest).1 = (run { url } all).1 ∧
    observations (run { url } rest).2 = observations (run { url } all).2) ⟨rfl, rfl⟩ ?both ?left
    unread
  case both =>
    rintro rest all input ⟨hbooks, hshown⟩
    simp only [observations] at hshown
    simp [observations, hbooks, hshown]
  case left =>
    rintro rest all input ⟨hbooks, hshown⟩ hasks
    obtain ⟨hsame, hnone⟩ := ((sound_run url all).turn input).of_asksForSnapshot hasks
    simp only [observations] at hshown hnone
    simp [observations, hbooks, hshown, hsame, hnone]

/-- **Looking on changes nothing.** Requests for snapshots and registrations of observers are left
out of a run, wherever they stand. Up to every moment the same is done about the connection, and the
books are the same but for the observers, who are those of the registrations that were kept. If only
requests for snapshots are left out, the same is shown to observers, too. A request that is kept
tells the same but for the number of observers. -/
theorem onlookers_change_nothing
    (looksOn : ∀ entry ∈ marked, entry.2 = false → entry.1.looksOn = true)
    {past later : List (Input × Bool)} (hmarked : marked = past ++ later) :
    let full := run { url } (whole past)
    let spare := run { url } (kept past)
    let observers := (handled { url } (kept past)).filterMap Command.observer?
    spare.1 = full.1.watchedBy observers ∧ acts spare.2 = acts full.2 ∧
      ((∀ entry ∈ past, entry.2 = false → entry.1.asksForSnapshot = true) →
        spare.1 = full.1 ∧ observations spare.2 = observations full.2) ∧
      ∀ query rest, later = (.command (.snapshot query), true) :: rest →
        full.1.activity = .ready →
          reports (full.1.step (.command (.snapshot query))).2 = [(query, full.1.snapshot)] ∧
          reports (spare.1.step (.command (.snapshot query))).2 =
            [(query, { full.1.snapshot with observers := observers.length })] := by
  intro full spare observers
  have hfollows := run_follows url fun entry hmem =>
    looksOn entry (hmarked ▸ List.mem_append_left later hmem)
  have hobservers : spare.1.observers = observers := (sound_new url).observers_run (kept past)
  have hbooks : spare.1 = full.1.watchedBy observers := hobservers ▸ hfollows.books_eq
  refine ⟨hbooks, hfollows.acts_eq, run_kept_of_snapshots url, fun query rest _ ready => ?_⟩
  have hspare : spare.1.activity = .ready := by
    rw [hbooks]
    exact ready
  rw [reports_snapshot ready, reports_snapshot hspare, hbooks]
  exact ⟨rfl, rfl⟩

/-- Of two observers who come one is left out, and so is a request for a snapshot. A failed attempt
is made again meanwhile. -/
theorem onlookers_change_nothing_waiting :
    let marked : List (Input × Bool) := [(.command (.addObserver 1), false),
      (.command (.connect 0), true), (.command (.snapshot 0), false),
      (.command (.addObserver 2), true), (.command (.connect 1), true),
      (.attemptFinished 1 (.error .connectTimeout), true), (.command (.snapshot 1), true),
      (.attemptFinished 2 (.ok 7), true)]
    let past := marked.take 6
    let full := run { url := "ws://localhost:80/" } (whole past)
    let spare := run { url := "ws://localhost:80/" } (kept past)
    full.1.observers = [1, 2] ∧ spare.1 = full.1.watchedBy [2] ∧ acts spare.2 = acts full.2 ∧
      reports (full.1.step (.command (.snapshot 1))).2 = [(1, ⟨.connecting, 0, 2, 1, 2⟩)] ∧
      reports (spare.1.step (.command (.snapshot 1))).2 = [(1, ⟨.connecting, 0, 1, 1, 2⟩)] := by
  intro marked past full spare
  have looksOn : ∀ entry ∈ marked, entry.2 = false → entry.1.looksOn = true := by
    simp [marked, Input.looksOn]
  have hmarked : marked = past ++ marked.drop 6 := rfl
  obtain ⟨hbooks, hacts, -, hreports⟩ :=
    onlookers_change_nothing "ws://localhost:80/" looksOn hmarked
  obtain ⟨hfull, hspare⟩ := hreports 1 _ rfl rfl
  exact ⟨rfl, hbooks, hacts, hfull, hspare⟩

end Manager

end PersistentLink
