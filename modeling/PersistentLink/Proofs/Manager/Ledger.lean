import PersistentLink.Proofs.Ensemble.Channel
import PersistentLink.Proofs.Manager.Books

/-!
# The ledger of outbound payloads

A payload that is sent is written once, in its turn, unless a reset discards it. To say so, a
ledger is kept beside a run: it notes which payloads were accepted and which were written since
the last reset. The ledger sees only what callers and writers see. What was accepted and not yet
written is then exactly what the manager keeps, the payload under way first and the queue after it.

## Main definitions

- `Ledger`: payloads accepted and written since the last reset
- `Ledger.record`: the ledger after one more input
- `Manager.ledger`: the ledger of a run
- `Manager.Balanced`: nothing is lost, doubled or overtaken
- `Manager.Explains`: what is announced agrees with the ledger

## Main results

- `Manager.Balanced.step`, `Manager.balanced_run`: a ledger stays balanced
- `Manager.accepted_eq_written_append_queue`: the balance, whenever nothing is under way, at every
  reset, and at every answer to a caller
-/

namespace PersistentLink

/-- The payload that is to be sent. -/
def Command.payload? : Command → Option Payload
  | .send payload => some payload
  | _ => none

/-- The payloads of an epoch, which begins with each reset. -/
structure Ledger where
  /-- payloads whose command was handled, in order -/
  accepted : List Payload := []
  /-- payloads whose writing succeeded, in order, over all links -/
  written : List Payload := []
  /-- payload that was handed to a writer, whose outcome is not known -/
  pending : Option Payload := none
  /-- number of payloads written since the present link was opened -/
  sinceOpened : Nat := 0
  deriving DecidableEq, Repr

namespace Ledger

/-- What an input says about payloads to a manager with the given books. -/
def hear (ledger : Ledger) (m : Manager) : Input → Ledger
  | .command (.send payload) =>
    if m.activity = .ready then { ledger with accepted := ledger.accepted ++ [payload] }
    else ledger
  | .written (.ok _) =>
    match ledger.pending with
    | some payload =>
      { ledger with
        written := ledger.written ++ [payload], pending := none
        sinceOpened := ledger.sinceOpened + 1 }
    | none => ledger
  | .written (.error _) => { ledger with pending := none }
  | _ => ledger

/-- What an effect says about payloads. -/
def see (ledger : Ledger) : Effect → Ledger
  | .write _ payload => { ledger with pending := some payload }
  | .startReader .. => { ledger with sinceOpened := 0 }
  | .emit (.reset _) => {}
  | _ => ledger

/-- The ledger after one more input to a manager with the given books. -/
def record (ledger : Ledger) (m : Manager) (input : Input) : Ledger :=
  (m.step input).2.foldl see (ledger.hear m input)

end Ledger

namespace Manager

/-- The ledger of a run that starts from the given ledger. -/
def ledgerFrom (m : Manager) (ledger : Ledger) : List Input → Ledger
  | [] => ledger
  | input :: rest => (m.step input).1.ledgerFrom (ledger.record m input) rest

/-- The ledger of a run. -/
def ledger (m : Manager) (inputs : List Input) : Ledger :=
  m.ledgerFrom {} inputs

/-- The payload that is being written. -/
def inFlight (m : Manager) : Option Payload :=
  match m.activity with
  | .writing payload | .draining payload _ => some payload
  | _ => none

/-- The ledger agrees with the books. -/
structure Balanced (m : Manager) (ledger : Ledger) : Prop where
  /-- what was accepted and not written is being written or queued, in order -/
  accepted_eq : ledger.accepted = ledger.written ++ ledger.pending.toList ++ m.queue
  pending_eq : ledger.pending = m.inFlight
  /-- the payloads that count as flushed are those written over the link -/
  flushed_eq : ∀ payload flushed, m.activity = .draining payload flushed →
    ledger.sinceOpened = flushed

end Manager

namespace Ledger

open Manager

/-! ## What leaves the ledger alone -/

section Seen

variable (ledger : Ledger) (m : Manager)

theorem foldl_see_of_forall {effects : List Effect}
    (h : ∀ effect ∈ effects, ledger.see effect = ledger) : effects.foldl see ledger = ledger := by
  induction effects with
  | nil => rfl
  | cons effect rest ih =>
    rw [List.foldl_cons, h effect List.mem_cons_self]
    exact ih fun other hmem => h other (List.mem_cons_of_mem _ hmem)

@[simp]
theorem foldl_see_transition (source target : Phase) :
    (transition source target).foldl see ledger = ledger := by
  rw [transition]
  split <;> rfl

@[simp]
theorem foldl_see_answerAll (waiters : List Waiter) (result : Except Failure Unit) :
    (answerAll waiters result).foldl see ledger = ledger := by
  apply foldl_see_of_forall
  intro effect hmem
  obtain ⟨waiter, -, rfl⟩ := List.mem_map.mp hmem
  rfl

@[simp]
theorem foldl_see_dispatch (payload : Payload) (panicking : List ObserverId) :
    (m.dispatch payload panicking).foldl see ledger = ledger := by
  apply foldl_see_of_forall
  intro effect hmem
  obtain ⟨observer, rfl⟩ | ⟨record, rfl, -⟩ := m.mem_dispatch hmem <;> rfl

@[simp]
theorem foldl_see_failureNotice (error : Failure) :
    (m.failureNotice error).foldl see ledger = ledger := by
  simp [failureNotice, see]

end Seen

/-- What is done forgets the payloads accepted so far or leaves them as they are. -/
theorem exists_append_accepted_foldl (ledger : Ledger) (effects : List Effect) :
    ∃ forgotten, ledger.accepted = forgotten ++ (effects.foldl see ledger).accepted := by
  induction effects generalizing ledger with
  | nil => exact ⟨[], rfl⟩
  | cons effect rest ih =>
    obtain ⟨forgotten, hrest⟩ := ih (ledger.see effect)
    have hfirst : (ledger.see effect).accepted = ledger.accepted ∨
        (ledger.see effect).accepted = [] := by
      unfold see
      split <;> simp
    obtain hkept | hnone := hfirst
    · exact ⟨forgotten, hkept ▸ hrest⟩
    · rw [hnone, List.nil_eq_append_iff] at hrest
      exact ⟨ledger.accepted, by rw [List.foldl_cons, hrest.2, List.append_nil]⟩

theorem accepted_hear (ledger : Ledger) (m : Manager) (input : Input) :
    (ledger.hear m input).accepted =
      ledger.accepted ++ (m.heard input).toList.filterMap Command.payload? := by
  cases hheard : m.heard input with
  | none =>
    unfold hear
    split
    · rename_i payload
      have hbusy : m.activity ≠ .ready := fun ready => by
        simp [m.heard_eq_some.mpr ⟨ready, rfl⟩] at hheard
      simp [if_neg hbusy]
    · split <;> simp
    all_goals simp
  | some command =>
    obtain ⟨ready, rfl⟩ := m.heard_eq_some.mp hheard
    cases command <;> simp [hear, ready, Command.payload?]

theorem exists_append_accepted_record (ledger : Ledger) (m : Manager) (input : Input) :
    ∃ forgotten, ledger.accepted ++ (m.heard input).toList.filterMap Command.payload? =
      forgotten ++ (ledger.record m input).accepted := by
  rw [← accepted_hear]
  exact exists_append_accepted_foldl _ _

end Ledger

namespace Manager

open Effect Ledger

variable {m : Manager} {ledger : Ledger}

/-! ## The ledger stays balanced -/

theorem inFlight_ready (ready : m.activity = .ready) : m.inFlight = none := by
  rw [inFlight, ready]

/-- With nothing being written, what was accepted and not written is queued. -/
theorem Balanced.accepted_eq_of_idle (h : m.Balanced ledger) (hidle : m.inFlight = none) :
    ledger.accepted = ledger.written ++ m.queue := by
  rw [h.accepted_eq, h.pending_eq, hidle]
  simp

theorem balanced_fresh (hqueue : m.queue = []) (hidle : m.inFlight = none) : m.Balanced {} := by
  refine ⟨by simp [hqueue], hidle.symm, ?_⟩
  intro payload flushed busy
  simp [inFlight, busy] at hidle

theorem Balanced.congr (h : m.Balanced ledger) {other : Manager}
    (hqueue : other.queue = m.queue) (hidle : m.inFlight = none) (hother : other.inFlight = none) :
    other.Balanced ledger := by
  refine ⟨by rw [hqueue, h.accepted_eq], by rw [h.pending_eq, hidle, hother], ?_⟩
  intro payload flushed busy
  simp [inFlight, busy] at hother

/-- An input that does not fit says nothing about payloads. -/
theorem Balanced.hear_of_stray (h : m.Balanced ledger) {input : Input}
    (stray : m.fits input = false) : ledger.hear m input = ledger := by
  have hpending := h.pending_eq
  cases input with
  | command command =>
    cases command with
    | send payload =>
      have hbusy : m.activity ≠ .ready := by
        intro ready
        simp [fits, ready] at stray
      rw [hear, if_neg hbusy]
    | _ => rfl
  | written result =>
    have hidle : m.inFlight = none := by
      unfold inFlight
      split <;> simp_all [fits]
    rw [hidle] at hpending
    cases result with
    | ok => simp only [hear, hpending]
    | error error => rw [hear, ← hpending]
  | _ => rfl

/-- The link is lost with a payload that could not be written, which goes back to where it was. -/
theorem Balanced.lost (h : m.Balanced ledger) {payload : Payload}
    (hflight : m.inFlight = some payload) {other : Manager}
    (hqueue : other.queue = payload :: m.queue) (hother : other.inFlight = none) :
    other.Balanced { ledger with pending := none } := by
  refine ⟨?_, hother.symm, ?_⟩
  · rw [hqueue, h.accepted_eq, h.pending_eq, hflight]
    simp
  · intro payload flushed busy
    simp [inFlight, busy] at hother

/-- What was left to do once a writer has been closed forgets the queue in a reset only, with which
a new epoch begins. -/
theorem Balanced.resume (h : m.Balanced ledger) (hidle : m.inFlight = none) (rest : Resume) :
    (m.resume rest).1.Balanced ((m.resume rest).2.foldl see ledger) := by
  cases rest with
  | linkLost error draining =>
    have heffects : (m.settleLost error draining).2.foldl see ledger = ledger := by
      cases draining <;> simp [settleLost, see]
    rw [Manager.resume, heffects]
    exact h.congr rfl hidle rfl
  | linkClosed status =>
    have heffects : (m.settleClosed status).2.foldl see ledger = ledger := by
      simp [settleClosed, see]
    rw [Manager.resume, heffects]
    exact h.congr rfl hidle rfl
  | reset call =>
    have heffects : (m.resume (.reset call)).2.foldl see ledger = {} := by
      simp [Manager.resume, settleReset, see]
    rw [heffects]
    exact balanced_fresh rfl rfl
  | shutdown =>
    have heffects : (m.resume .shutdown).2.foldl see ledger = {} := by
      simp [Manager.resume, settleReset, see]
    rw [heffects]
    exact balanced_fresh rfl rfl
  | attempt trigger =>
    have heffects : (m.beginAttempt trigger).2.foldl see ledger = ledger := by
      simp [beginAttempt, see]
    rw [Manager.resume, heffects]
    exact h.congr rfl hidle rfl
  | nothing => exact h.congr rfl hidle rfl

theorem Balanced.beginAttempt (h : m.Balanced ledger) (hidle : m.inFlight = none)
    (trigger : Trigger) :
    (m.beginAttempt trigger).1.Balanced ((m.beginAttempt trigger).2.foldl see ledger) :=
  h.resume hidle (.attempt trigger)

theorem Balanced.accept (h : m.Balanced ledger) (payload : Payload) :
    { m with queue := m.queue ++ [payload] }.Balanced
      { ledger with accepted := ledger.accepted ++ [payload] } :=
  ⟨by simp [h.accepted_eq], h.pending_eq, h.flushed_eq⟩

theorem Balanced.open (h : m.Balanced ledger) (hidle : m.inFlight = none) {other : Manager}
    (hqueue : other.queue = m.queue) (hother : other.inFlight = none) :
    other.Balanced { ledger with sinceOpened := 0 } := by
  have hcongr := h.congr hqueue hidle hother
  refine ⟨hcongr.accepted_eq, hcongr.pending_eq, ?_⟩
  intro payload flushed busy
  simp [inFlight, busy] at hother

theorem Balanced.hear_written (h : m.Balanced ledger) {payload : Payload}
    (hflight : m.inFlight = some payload) :
    ledger.hear m (.written (.ok ())) =
      { ledger with
        written := ledger.written ++ [payload], pending := none
        sinceOpened := ledger.sinceOpened + 1 } := by
  simp only [hear, h.pending_eq, hflight]

/-- A case of a step leaves a balanced ledger behind. -/
theorem Turn.balanced {input : Input} {reaction : Reaction} (turn : Turn m input reaction)
    (hsound : m.Sound) (h : m.Balanced ledger) :
    reaction.1.Balanced (reaction.2.foldl see (ledger.hear m input)) := by
  cases turn with
  | welcomed _ ready | registered _ ready | reported _ ready | staleFailure _ _ ready
      | alreadyDown _ _ ready | staleEvent _ _ _ ready | joined _ ready =>
    exact h.congr rfl (inFlight_ready ready) (inFlight_ready ready)
  | received _ _ ready =>
    rw [foldl_see_dispatch]
    exact h
  | called call ready free =>
    have hidle := inFlight_ready ready
    refine Balanced.beginAttempt ?_ ?_ .caller
    · exact h.congr rfl hidle hidle
    · exact hidle
  | handedOver payload link ready live held =>
    have hqueue := (hsound.settled ready).queue_eq (.inl live)
    -- over a live link the queue is empty, so that the payload overtakes nothing
    have haccepted := h.accepted_eq_of_idle (inFlight_ready ready)
    simp only [hear, if_pos ready, List.foldl_cons, List.foldl_nil, see]
    refine ⟨?_, rfl, by simp⟩
    simp [haccepted, hqueue]
  | queued payload ready connecting =>
    simp only [hear, if_pos ready, List.foldl_cons, List.foldl_nil, see]
    exact h.accept payload
  | summoned payload ready free =>
    have hidle := inFlight_ready ready
    simp only [hear, if_pos ready]
    refine Balanced.beginAttempt ?_ ?_ .send
    · exact h.accept payload
    · exact hidle
  | dismissing order link ready live held =>
    cases order <;> exact h.congr rfl (inFlight_ready ready) rfl
  | dismissed order ready unlinked =>
    have hidle := inFlight_ready ready
    have hsame : { m with attempting := false }.Balanced ledger := h.congr rfl hidle hidle
    cases order <;> cases hattempting : m.attempting <;> exact hsame.resume hidle _
  | staleSuccess generation link ready stale =>
    exact h.congr rfl (inFlight_ready ready) rfl
  | opened link ready connecting empty =>
    have hidle := inFlight_ready ready
    simp only [List.cons_append, List.foldl_cons, List.foldl_append, List.foldl_nil,
      foldl_see_transition, foldl_see_answerAll, see, hear]
    exact h.open hidle rfl hidle
  | openedDraining link payload rest ready connecting nonempty =>
    have haccepted := h.accepted_eq_of_idle (inFlight_ready ready)
    simp only [List.cons_append, List.foldl_cons, List.foldl_append, List.foldl_nil,
      foldl_see_transition, see, hear]
    refine ⟨?_, rfl, ?_⟩
    · simp [haccepted, nonempty]
    · rintro - - ⟨⟩
      rfl
  | failed error ready connecting nobody =>
    have hidle := inFlight_ready ready
    rw [foldl_see_failureNotice]
    exact h.congr rfl hidle hidle
  | failedRetrying error ready connecting somebody =>
    have hidle := inFlight_ready ready
    simp only [Reaction.after, List.foldl_append, foldl_see_failureNotice, List.foldl_cons,
      List.foldl_nil, see, hear]
    refine Balanced.beginAttempt ?_ ?_ .retry
    · exact h.congr rfl hidle hidle
    · exact hidle
  | peerClosed status panicking link ready live held =>
    exact h.congr rfl (inFlight_ready ready) rfl
  | wrote payload busy =>
    have hflight : m.inFlight = some payload := by rw [inFlight, busy]
    rw [h.hear_written hflight]
    refine ⟨?_, rfl, by simp⟩
    simp [h.accepted_eq, h.pending_eq, hflight]
  | writeLost payload error link busy held =>
    have hflight : m.inFlight = some payload := by rw [inFlight, busy]
    exact h.lost hflight rfl rfl
  | drained payload flushed busy empty =>
    have hflight : m.inFlight = some payload := by rw [inFlight, busy]
    rw [h.hear_written hflight]
    simp only [List.foldl_cons, foldl_see_answerAll, see]
    refine ⟨?_, rfl, by simp⟩
    simp [h.accepted_eq, h.pending_eq, hflight]
  | drainedOne payload next rest flushed link busy nonempty held =>
    have hflight : m.inFlight = some payload := by rw [inFlight, busy]
    -- what was written over the link grows by one, and so does what counts as flushed
    have hflushed := h.flushed_eq payload flushed busy
    rw [h.hear_written hflight]
    simp only [List.foldl_cons, List.foldl_nil, see]
    refine ⟨?_, rfl, ?_⟩
    · simp [h.accepted_eq, h.pending_eq, hflight, nonempty]
    · rintro - - ⟨⟩
      rw [hflushed]
  | drainLost payload flushed error link busy held =>
    have hflight : m.inFlight = some payload := by rw [inFlight, busy]
    exact h.lost hflight rfl rfl
  | released generation rest outcome busy =>
    have hidle : m.inFlight = none := by rw [inFlight, busy]
    exact h.resume hidle rest
  | ignored input stray =>
    rw [h.hear_of_stray stray]
    exact h

theorem Balanced.step (h : m.Balanced ledger) (hsound : m.Sound) (input : Input) :
    (m.step input).1.Balanced (ledger.record m input) :=
  (hsound.turn input).balanced hsound h

/-! ## The ledger of a run -/

theorem ledgerFrom_concat (m : Manager) (ledger : Ledger) (inputs : List Input) (input : Input) :
    m.ledgerFrom ledger (inputs ++ [input]) =
      (m.ledgerFrom ledger inputs).record (m.run inputs).1 input := by
  induction inputs generalizing m ledger with
  | nil => rfl
  | cons first rest ih =>
    rw [List.cons_append, ledgerFrom, ih, ledgerFrom, run_cons]
    rfl

theorem ledger_concat (m : Manager) (inputs : List Input) (input : Input) :
    m.ledger (inputs ++ [input]) = (m.ledger inputs).record (m.run inputs).1 input :=
  ledgerFrom_concat m {} inputs input

theorem balanced_run (url : String) (inputs : List Input) :
    (run { url } inputs).1.Balanced (Manager.ledger { url } inputs) := by
  induction inputs using List.reverseRecOn with
  | nil => exact balanced_fresh rfl rfl
  | append_singleton inputs input ih =>
    rw [ledger_concat, run_concat_fst]
    exact ih.step (sound_run url inputs) input

/-- What has been accepted since the last reset is the end of what was ever accepted. -/
theorem exists_append_accepted (m : Manager) (inputs : List Input) :
    ∃ earlier, (m.handled inputs).filterMap Command.payload? =
      earlier ++ (m.ledger inputs).accepted := by
  induction inputs using List.reverseRecOn with
  | nil => exact ⟨[], rfl⟩
  | append_singleton inputs input ih =>
    obtain ⟨earlier, hearlier⟩ := ih
    obtain ⟨forgotten, hforgotten⟩ :=
      (m.ledger inputs).exists_append_accepted_record (m.run inputs).1 input
    refine ⟨earlier ++ forgotten, ?_⟩
    rw [handled_concat, ledger_concat, List.filterMap_append, hearlier, List.append_assoc,
      List.append_assoc, hforgotten]

/-! ## What is announced -/

/-- A reset discards the queue while nothing is being written, and a new epoch begins. -/
theorem Turn.of_reset_mem {input : Input} {reaction : Reaction} (turn : Turn m input reaction)
    (ledger : Ledger) {discarded : Nat} (h : .emit (.reset discarded) ∈ reaction.2) :
    m.inFlight = none ∧ discarded = m.queue.length ∧
      reaction.2.foldl see (ledger.hear m input) = {} := by
  rw [← mem_events] at h
  cases turn with
  | dismissed order ready unlinked =>
    refine ⟨inFlight_ready ready, ?_, ?_⟩
    · cases order <;> simpa [event?, events_resume, apply_ite] using h
    · cases order <;> simp [Manager.resume, settleReset, see]
  | released generation rest outcome busy =>
    refine ⟨by rw [inFlight, busy], ?_⟩
    cases rest with
    | reset | shutdown =>
      refine ⟨by simpa [event?, events_resume] using h, ?_⟩
      simp [Manager.resume, settleReset, see]
    | _ => simp [event?, events_resume] at h
  | _ => simp [event?] at h

/-- A link is announced with the number of payloads that were written since it was opened. -/
theorem Turn.of_opened_mem {input : Input} {reaction : Reaction} (turn : Turn m input reaction)
    (hbalanced : m.Balanced ledger) {generation flushed : Nat}
    (h : .emit (.opened generation flushed) ∈ reaction.2) :
    flushed = (reaction.2.foldl see (ledger.hear m input)).sinceOpened := by
  rw [← mem_events] at h
  cases turn with
  | opened link ready connecting empty =>
    simp [event?] at h
    simp [h, see, hear]
  | drained payload done busy empty =>
    have hflight : m.inFlight = some payload := by rw [inFlight, busy]
    rw [hbalanced.hear_written hflight]
    simp [event?] at h
    simp [h, see, hbalanced.flushed_eq payload done busy]
  | dismissed order ready unlinked =>
    cases order <;> simp [event?, events_resume, apply_ite] at h
  | released generation rest outcome busy =>
    cases rest <;> simp [event?, events_resume] at h
  | _ => simp [event?] at h

/-- A call is answered well only once the queue is empty and nothing is being written. -/
theorem Turn.of_ok_mem {input : Input} {reaction : Reaction} (turn : Turn m input reaction)
    (hsound : m.Sound) {call : CallId} (h : .answer call (.ok ()) ∈ reaction.2) :
    reaction.1.queue = [] ∧ reaction.1.inFlight = none := by
  rw [← mem_answers] at h
  cases turn with
  | welcomed _ ready live =>
    exact ⟨(hsound.settled ready).queue_eq (.inl live), inFlight_ready ready⟩
  | opened _ ready _ empty => exact ⟨empty, inFlight_ready ready⟩
  | drained _ _ _ empty => exact ⟨empty, rfl⟩
  | dismissed order ready unlinked =>
    cases order <;> exact ⟨rfl, rfl⟩
  | released generation rest outcome busy =>
    cases rest with
    | reset => exact ⟨rfl, rfl⟩
    | linkLost error draining =>
      cases draining <;> simp [answer?, answers_resume] at h
    | _ => simp [answer?, answers_resume] at h
  | _ => simp [answer?] at h

/-- A reset that is asked for is announced: at once, or as soon as the link has been closed, before
which nothing else is handled. -/
theorem Sound.reset_announced (h : m.Sound) (ready : m.activity = .ready) {input : Input}
    {record : LogRecord} {rest : Resume} (order : Dismissal m input record rest) :
    .emit (.reset m.queue.length) ∈ (m.step input).2 ∨
      (m.step input).1.activity = .closing m.generation rest ∧
        ∀ outcome, .emit (.reset m.queue.length) ∈ ((m.step input).1.step (.closed outcome)).2 := by
  have hstep : m.step input = (m.reset rest).after [.log record] := by
    cases order <;> simp [Manager.step, ready, receive, handleCommand, serve, Command.outline]
  by_cases live : m.phase = .live
  · obtain ⟨link, hwriter, hreader⟩ := (h.settled ready).held live
    have hattempting : m.attempting = false := by
      rw [← Bool.not_eq_true, (h.settled ready).attempting_iff, live]
      decide
    rw [hstep, reset_linked hwriter hreader hattempting]
    refine .inr ⟨rfl, fun outcome => ?_⟩
    rw [← mem_events]
    cases order <;> simp [Manager.step, event?, events_resume]
  · obtain ⟨hwriter, hreader⟩ := (h.settled ready).unlinked live
    rw [hstep, reset, release_unlinked]
    · left
      rw [← mem_events]
      cases order <;> simp [events_resume]
    · exact hwriter
    · exact hreader

/-- What the ledgers before and after a step say about what it announces. -/
structure Explains (m : Manager) (before after : Ledger) (reaction : Reaction) : Prop where
  /-- a reset discards what was accepted and not written, and begins a new epoch -/
  reset : ∀ discarded, .emit (.reset discarded) ∈ reaction.2 →
    before.accepted = before.written ++ m.queue ∧ discarded = m.queue.length ∧ after = {}
  /-- a link is announced with the number of payloads written since it was opened -/
  opened : ∀ generation flushed, .emit (.opened generation flushed) ∈ reaction.2 →
    flushed = after.sinceOpened
  /-- a call is answered well once all that was accepted has been written -/
  answered : ∀ call, .answer call (.ok ()) ∈ reaction.2 →
    reaction.1.queue = [] ∧ after.accepted = after.written

theorem Balanced.explains (h : m.Balanced ledger) (hsound : m.Sound) (input : Input) :
    m.Explains ledger (ledger.record m input) (m.step input) := by
  have hturn := hsound.turn input
  constructor
  · intro discarded hmem
    obtain ⟨hidle, hdiscarded, hfresh⟩ := hturn.of_reset_mem ledger hmem
    exact ⟨h.accepted_eq_of_idle hidle, hdiscarded, hfresh⟩
  · intro generation flushed hmem
    exact hturn.of_opened_mem h hmem
  · intro call hmem
    obtain ⟨hqueue, hidle⟩ := hturn.of_ok_mem hsound hmem
    have haccepted := (h.step hsound input).accepted_eq_of_idle hidle
    exact ⟨hqueue, by rw [haccepted, hqueue, List.append_nil]⟩

/-- **Nothing is lost, doubled or overtaken.** The ledger of a run cuts it into epochs, at each
reset. What was accepted in an epoch, in the order of its commands, is what was written in it, over
all links, then what is being written, and then the queue. What is announced agrees with that: the
queue that a reset discards is what was accepted and not written, the number with which a link is
announced counts what was written since it was opened, and when a call is answered well all that was
accepted has been written.

Commands are handled in the order in which they entered the queue of commands, whoever gave them. -/
theorem accepted_eq_written_append_queue :
    (∀ url past,
      let m := (run { url } past).1
      let ledger := Manager.ledger { url } past
      (∃ earlier, (handled { url } past).filterMap Command.payload? =
          earlier ++ ledger.accepted) ∧
        ledger.accepted = ledger.written ++ m.inFlight.toList ++ m.queue ∧
        (m.activity = .ready → ledger.accepted = ledger.written ++ m.queue) ∧
        (∀ input, m.Explains ledger (Manager.ledger { url } (past ++ [input])) (m.step input)) ∧
        ∀ input record rest, Dismissal m input record rest → m.activity = .ready →
          .emit (.reset m.queue.length) ∈ (m.step input).2 ∨
            (m.step input).1.activity = .closing m.generation rest ∧
              ∀ outcome, .emit (.reset m.queue.length) ∈
                ((m.step input).1.step (.closed outcome)).2) ∧
      ∀ settings moves e effects,
        (Ensemble.ofSettings settings).run moves = some (e, effects) →
          let first := Ensemble.ofSettings settings
          e.manager = (first.manager.run (first.fed moves)).1 ∧
            first.manager.handled (first.fed moves) ++ e.commands = first.entered moves := by
  refine ⟨?_, ?_⟩
  · intro url past m ledger
    have hsound : m.Sound := sound_run url past
    have hbalanced : m.Balanced ledger := balanced_run url past
    refine ⟨exists_append_accepted _ past, ?_, ?_, ?_, ?_⟩
    · rw [hbalanced.accepted_eq, hbalanced.pending_eq]
    · intro ready
      exact hbalanced.accepted_eq_of_idle (inFlight_ready ready)
    · intro input
      rw [ledger_concat]
      exact hbalanced.explains hsound input
    · intro input record rest order ready
      exact hsound.reset_announced ready order
  · intro settings moves e effects hrun first
    obtain ⟨hmanager, hhandled⟩ := Ensemble.feeds_of_run hrun
    exact ⟨hmanager, hhandled⟩

/-- A payload that was queued for a caller's attempt is written before the caller is answered. The
next one cannot be written, and is what a reset would discard. -/
theorem accepted_eq_written_append_queue_unwritten :
    let url := "ws://localhost:80/"
    let opening : List Input := [.command (.connect 0), .command (.send (.binary [1])),
      .attemptFinished 1 (.ok 7)]
    let lost : List Input := [.command (.connect 0), .attemptFinished 1 (.ok 7),
      .command (.send (.binary [1])), .written (.error .connectionClosed), .closed .done]
    let opened := Manager.ledger { url } (opening ++ [.written (.ok ())])
    let ledger := Manager.ledger { url } lost
    let m := (run { url } lost).1
    (opened.sinceOpened = 1 ∧ opened.written = [.binary [1]] ∧ opened.accepted = opened.written) ∧
      (m.queue = [.binary [1]] ∧ ledger.accepted = ledger.written ++ m.queue) ∧
      (.emit (.reset 1) ∈ (m.step (.command (.close 5))).2 ∧ 1 = m.queue.length) ∧
      ∃ e effects,
        let first := Ensemble.ofSettings {}
        let moves : List Move :=
          [.submit (.connect 0), .submit (.send (.binary [1])), .handle []]
        first.run moves = some (e, effects) ∧ e.commands = [.send (.binary [1])] ∧
          handled first.manager (first.fed moves) ++ e.commands = first.entered moves := by
  intro url opening lost opened ledger m
  obtain ⟨hbooks, hcommands⟩ := accepted_eq_written_append_queue
  -- the queue is written, and the caller is answered
  obtain ⟨-, hannounced, hanswered⟩ := (hbooks url opening).2.2.2.1 (.written (.ok ()))
  have hflushed := hannounced 1 1 (.tail _ (.head _))
  have hwritten := hanswered 0 (.tail _ (.tail _ (.head _)))
  -- the link is lost, and then all is released
  obtain ⟨-, -, hready, hexplains, hdismissal⟩ := hbooks url lost
  have hdismissed : .emit (.reset 1) ∈ (m.step (.command (.close 5))).2 := by
    obtain hmem | hclosing := hdismissal _ _ _ (.close 5) rfl
    · exact hmem
    · exact absurd hclosing.1 (by decide)
  have hreset := (hexplains (.command (.close 5))).reset 1 hdismissed
  have hordered := hcommands {} [.submit (.connect 0), .submit (.send (.binary [1])),
    .handle []] _ _ rfl
  exact ⟨⟨hflushed.symm, rfl, hwritten.2⟩, ⟨rfl, hready rfl⟩,
    ⟨hdismissed, hreset.2.1⟩, _, _, rfl, rfl, hordered.2⟩

end Manager

end PersistentLink
