import PersistentLink.Proofs.Manager.Handling

/-!
# Answers to callers

A call is answered once, and the answer says what became of the attempt that the caller waited
for. The events that are published tell the same.

## Main definitions

- `Manager.owed`: the calls that have no answer yet
- `Manager.Grounds`: why a caller who asked for the connection is given an answer
- `Manager.Announced`: what is published along with an answer

## Main results

- `Manager.Sound.owed_run`: a call that was handled is answered or still owed an answer
- `Manager.Handling.grounds`, `Manager.Grounds.answers`: a handling gives exactly the answers that
  it has grounds for
- `Manager.connect_answered`: the answer to a caller who asked for the connection
-/

namespace PersistentLink

/-- The number of the call that a command is answered under. -/
def Command.call? : Command → Option CallId
  | .connect call | .close call => some call
  | _ => none

namespace Manager

open Effect

/-- The calls that have been handled and not answered: those of the callers who wait, and that of
one who waits for a reset. -/
def owed (m : Manager) : List CallId :=
  m.waiting ++
    match m.activity with
    | .closing _ (.reset call) => [call]
    | _ => []

/-- The calls that are answered, in order. -/
def answered (effects : List Effect) : List CallId :=
  (answers effects).map (·.1)

variable {m : Manager}

/-! ## Who is owed an answer -/

theorem answered_append (first second : List Effect) :
    answered (first ++ second) = answered first ++ answered second := by
  simp [answered]

/-- Doing what was left to do answers some of those who wait and keeps the others waiting. -/
theorem answered_resume (rest : Resume) :
    answered (m.resume rest).2 ++ (m.resume rest).1.owed =
      m.waiting ++
        match rest with
        | .reset call => [call]
        | _ => [] := by
  rw [answered, answers_resume]
  cases rest with
  | linkLost error draining =>
    cases draining <;> simp [owed, waiting, resume, settleLost, Function.comp_def]
  | _ =>
    simp [owed, waiting, resume, settleClosed, settleReset, beginAttempt, Function.comp_def]

/-- A step answers calls that were owed an answer or are handled by it, and owes the others. -/
theorem Turn.owed_perm {input : Input} {reaction : Reaction} (turn : Turn m input reaction)
    (hsound : m.Sound) :
    (answered reaction.2 ++ reaction.1.owed).Perm
      (m.owed ++ (m.heard input).toList.filterMap Command.call?) := by
  cases turn with
  | welcomed call ready =>
    have hanswered : answered [.log (.handling .connect m.phase), .answer call (.ok ())] = [call] :=
      rfl
    rw [hanswered, m.heard_eq_some.mpr ⟨ready, rfl⟩]
    -- the call is answered before those who came earlier
    exact List.perm_append_comm
  | failed error ready connecting nobody =>
    have hline := (hsound.settled ready).turnedAway_append_carriedOver connecting
    rw [nobody, List.map_nil, List.append_nil] at hline
    apply List.Perm.of_eq
    simp [answered, Function.comp_def, hline, owed, waiting, ready, heard]
  | failedRetrying error ready connecting =>
    have hline := (hsound.settled ready).turnedAway_append_carriedOver connecting
    apply List.Perm.of_eq
    simp [answered, Function.comp_def, hline, owed, waiting, ready, heard, beginAttempt, answer?]
  | called call ready free =>
    have hwaiters := (hsound.settled ready).waiters_eq (mayStartAttempt_iff.mp free).2
    apply List.Perm.of_eq
    simp [answered, owed, waiting, ready, heard, beginAttempt, answer?, hwaiters, Command.call?,
      Waiter.initiator]
  | joined call ready =>
    apply List.Perm.of_eq
    simp [answered, owed, waiting, ready, heard, answer?, Command.call?, Waiter.joiner]
  | dismissing order link ready =>
    cases order <;> apply List.Perm.of_eq <;>
      simp [answered, owed, waiting, ready, heard, answer?, Command.call?]
  | dismissed order ready =>
    have hresume (rest : Resume) := answered_resume (m := { m with attempting := false }) rest
    apply List.Perm.of_eq
    cases order with
    | close call =>
      simpa [answered, heard, ready, owed, waiting, answer?, apply_ite, Command.call?]
        using hresume (.reset call)
    | shutdown =>
      simpa [answered, heard, ready, owed, waiting, answer?, apply_ite] using hresume .shutdown
  | released generation rest outcome busy =>
    apply List.Perm.of_eq
    rw [Reaction.after_fst, Reaction.after_snd, answered_append, List.append_assoc, answered_resume]
    cases rest <;> simp [answered, owed, busy, heard, answer?]
  | handedOver _ _ ready | queued _ ready | registered _ ready | reported _ ready
      | staleSuccess _ _ ready | staleFailure _ _ ready | received _ _ ready
      | peerClosed _ _ _ ready | alreadyDown _ _ ready | staleEvent _ _ _ ready
      | opened _ ready | openedDraining _ _ _ ready | summoned _ ready =>
    apply List.Perm.of_eq
    simp [answered, owed, waiting, ready, heard, answer?, beginAttempt, Command.call?]
  | wrote _ busy | writeLost _ _ _ busy | drained _ _ busy | drainedOne _ _ _ _ _ busy
      | drainLost _ _ _ _ busy =>
    apply List.Perm.of_eq
    simp [answered, owed, waiting, busy, heard, answer?]
  | ignored input stray =>
    apply List.Perm.of_eq
    simp [answered, heard_of_stray stray]

/-- A call that was handled in a run is answered in it, or is still owed an answer. -/
theorem Sound.owed_run (h : m.Sound) (inputs : List Input) :
    (answered (m.run inputs).2 ++ (m.run inputs).1.owed).Perm
      (m.owed ++ (m.handled inputs).filterMap Command.call?) := by
  induction inputs using List.reverseRecOn with
  | nil => simp [answered]
  | append_singleton inputs input ih =>
    have hstep := ((h.run inputs).turn input).owed_perm (h.run inputs)
    rw [run_concat_snd, run_concat_fst, handled_concat, answered_append, List.filterMap_append,
      List.append_assoc, ← List.append_assoc m.owed]
    refine (hstep.append_left _).trans ?_
    rw [← List.append_assoc]
    exact ih.append_right _

/-! ## What a handling leads to -/

theorem mem_map_call {waiters : List Waiter} {call : CallId} {result given : Except Failure Unit} :
    (call, result) ∈ waiters.map (fun waiter => (waiter.call, given)) ↔
      call ∈ waiters.map (·.call) ∧ result = given := by
  constructor
  · intro h
    obtain ⟨waiter, hmem, rfl, rfl⟩ := by simpa using h
    exact ⟨List.mem_map_of_mem hmem, rfl⟩
  · rintro ⟨h, rfl⟩
    obtain ⟨waiter, hmem, rfl⟩ := List.mem_map.mp h
    exact List.mem_map_of_mem hmem

/-- Why a caller who asked for the connection is given an answer, when an input is handled to its
end and the given outcomes come in meanwhile. -/
inductive Grounds (m : Manager) (input : Input) (outcomes : List Input) (call : CallId) :
    Except Failure Unit → Prop
  /-- the connection stood when the caller asked for it -/
  | live (asked : input = .command (.connect call)) (stands : m.phase = .live) :
    Grounds m input outcomes call (.ok ())
  /-- the attempt opened a link, and every write of the queue succeeded -/
  | opened (link : LinkId) (waits : call ∈ m.waiting)
      (success : input = .attemptFinished m.generation (.ok link))
      (written : ∀ error, .written (.error error) ∉ outcomes) :
    Grounds m input outcomes call (.ok ())
  /-- the attempt failed, and the caller was not carried over to a further one -/
  | failed (cause : Failure) (waits : call ∈ m.waiting)
      (failure : input = .attemptFinished m.generation (.error cause))
      (left : call ∉ (m.run (input :: outcomes)).1.waiting) :
    Grounds m input outcomes call (.error (.connectFailed cause))
  /-- the attempt opened a link, and a write of the queue failed -/
  | lost (link : LinkId) (error : Failure) (waits : call ∈ m.waiting)
      (success : input = .attemptFinished m.generation (.ok link))
      (unwritten : .written (.error error) ∈ outcomes) :
    Grounds m input outcomes call (.error .connectionClosed)
  /-- all was released -/
  | dismissed (record : LogRecord) (rest : Resume) (waits : call ∈ m.waiting)
      (order : Dismissal m input record rest) :
    Grounds m input outcomes call (.error .aborted)

/-- What is published and done along with an answer, by the handling that gives it and by the whole
run. -/
def Announced (m : Manager) (handling run : List Effect) : Except Failure Unit → Prop
  | .ok _ => m.phase = .live ∨ ∃ flushed, .emit (.opened m.generation flushed) ∈ handling
  | .error (.connectFailed cause) =>
    .emit (.connectFailed m.generation m.trigger cause.message) ∈ handling ∧
      ∀ other given, .answer other given ∈ handling → given = .error (.connectFailed cause)
  | .error .connectionClosed =>
    (∃ reason, .emit (.closed m.generation (.abnormal reason)) ∈ handling) ∧
      ∀ flushed, .emit (.opened m.generation flushed) ∉ run
  | .error .aborted => ∃ discarded, .emit (.reset discarded) ∈ handling
  | .error _ => False

variable {input : Input} {outcomes : List Input}

/-- Whoever waits while nothing is under way waits for the attempt in flight. -/
theorem Sound.connecting_of_waits (h : m.Sound) (ready : m.activity = .ready) {call : CallId}
    (waits : call ∈ m.waiting) : m.phase = .connecting := by
  by_contra connecting
  rw [waiting, (h.settled ready).waiters_eq connecting] at waits
  exact absurd waits List.not_mem_nil

theorem Handling.run_eq_step (h : m.Handling input outcomes) (finished : ¬(m.step input).1.Busy) :
    m.run (input :: outcomes) = m.step input := by
  rw [eq_nil_of_lasts h.lasts finished, run_singleton]

/-- An attempt that opens a link leads to the writing of the queue. -/
theorem Handling.of_success {link : LinkId}
    (h : m.Handling (.attemptFinished m.generation (.ok link)) outcomes) (hsound : m.Sound)
    (connecting : m.phase = .connecting) :
    m.DrainEnds outcomes (m.run (.attemptFinished m.generation (.ok link) :: outcomes)) := by
  obtain ⟨ready, hlasts, finished⟩ := h
  have hturn := hsound.turn (.attemptFinished m.generation (.ok link))
  have hnext := hsound.step (.attemptFinished m.generation (.ok link))
  rw [run_cons] at finished ⊢
  generalize m.step (.attemptFinished m.generation (.ok link)) = reaction
    at hturn hnext hlasts finished
  cases hturn with
  | staleSuccess _ _ _ stale => exact absurd ⟨rfl, connecting⟩ stale
  | opened =>
    obtain rfl := eq_nil_of_lasts hlasts (by simp [Busy, ready])
    constructor
    · simp [event?, answer?]
    · simp
  | openedDraining =>
    obtain ⟨hwritten, hlost⟩ := run_of_draining hnext rfl hlasts finished
    constructor
    · simpa [event?, answer?] using hwritten
    · simpa [event?, answer?] using hlost
  | dismissing order | dismissed order => cases order
  | ignored _ stray => simp [fits, ready] at stray

theorem Handling.of_fails (h : m.Handling input outcomes) (hsound : m.Sound) {cause : Failure}
    (hfails : m.Fails input cause) : m.AfterFailure cause (m.run (input :: outcomes)) := by
  have hafter := hsound.step_of_fails hfails
  rw [h.run_eq_step fun busy => busy.1 hafter.activity_eq]
  exact hafter

/-- A reset aborts whoever waits, and answers who asked for it. -/
theorem Handling.of_dismissal (h : m.Handling input outcomes) (hsound : m.Sound)
    {record : LogRecord} {rest : Resume} (order : Dismissal m input record rest) :
    events (m.run (input :: outcomes)).2 = [.reset m.queue.length] ∧
      ∀ call result, (call, result) ∈ answers (m.run (input :: outcomes)).2 ↔
        call ∈ m.waiting ∧ result = .error .aborted ∨
          input = .command (.close call) ∧ result = .ok () := by
  obtain ⟨ready, hlasts, finished⟩ := h
  have hturn := hsound.turn input
  rw [run_cons] at finished ⊢
  generalize m.step input = reaction at hturn hlasts finished
  cases hturn with
  | dismissing order link ready live =>
    have hwaiters : m.waiters = [] := by
      refine (hsound.settled ready).waiters_eq ?_
      rw [live]
      decide
    obtain ⟨record, hrun⟩ := run_of_closing rfl hlasts finished
    simp only [Reaction.after_snd, hrun]
    cases order <;>
      simp [event?, answer?, events_resume, answers_resume, waiting, hwaiters, eq_comm]
  | dismissed order =>
    obtain rfl := eq_nil_of_lasts hlasts (not_busy_resume _)
    cases order with
    | close asked =>
      simp [-List.mem_map, event?, answer?, events_resume, answers_resume, waiting, apply_ite,
        mem_map_call, eq_comm (a := asked)]
    | shutdown =>
      simp [-List.mem_map, event?, answer?, events_resume, answers_resume, waiting, apply_ite,
        mem_map_call]
  | ignored _ stray => cases order <;> simp [fits, ready] at stray
  | _ => cases order

/-- A handling that answers somebody has grounds for it. -/
theorem Handling.grounds (h : m.Handling input outcomes) (hsound : m.Sound)
    (hunique : m.waiting.Nodup) {call : CallId} {result : Except Failure Unit}
    (hanswer : (call, result) ∈ answers (m.run (input :: outcomes)).2) :
    m.Grounds input outcomes call result ∨ input = .command (.close call) ∧ result = .ok () := by
  have hlasts := h.lasts
  have hover := h.finished
  have hturn := hsound.turn input
  generalize hstep : m.step input = reaction at hturn
  cases hturn with
  | welcomed asked ready live =>
    rw [h.run_eq_step (by simp [hstep, Busy, ready]), hstep] at hanswer
    obtain ⟨rfl, rfl⟩ : call = asked ∧ result = .ok () := by simpa [answer?] using hanswer
    exact .inl (.live rfl live)
  | dismissing order | dismissed order =>
    obtain ⟨waits, rfl⟩ | hclose := ((h.of_dismissal hsound order).2 call result).mp hanswer
    · exact .inl (.dismissed _ _ waits order)
    · exact .inr hclose
  | opened link ready connecting | openedDraining link _ _ ready connecting =>
    obtain ⟨hwritten, hlost⟩ := h.of_success hsound connecting
    by_cases hall : ∀ error, .written (.error error) ∉ outcomes
    · rw [(hwritten hall).2, mem_map_call] at hanswer
      obtain ⟨waits, rfl⟩ := hanswer
      exact .inl (.opened link waits rfl hall)
    · simp only [not_forall, not_not] at hall
      rw [(hlost hall).2.1, mem_map_call] at hanswer
      obtain ⟨waits, rfl⟩ := hanswer
      obtain ⟨error, hmem⟩ := hall
      exact .inl (.lost link error waits rfl hmem)
  | failed cause ready connecting | failedRetrying cause ready connecting =>
    have hafter := h.of_fails hsound ⟨ready, connecting, rfl⟩
    have hline := (hsound.settled ready).turnedAway_append_carriedOver connecting
    rw [hafter.answers_eq, mem_map_call] at hanswer
    obtain ⟨haway, rfl⟩ := hanswer
    refine .inl (.failed cause ?_ rfl ?_)
    · rw [← hline]
      exact List.mem_append_left _ haway
    · rw [← hline] at hunique
      rw [waiting, hafter.waiters_eq]
      intro hover
      exact (List.nodup_append.mp hunique).2.2 call haway call hover rfl
  | handedOver payload =>
    have hnext := hsound.step (.command (.send payload))
    rw [hstep] at hnext hlasts
    rw [run_cons, hstep] at hanswer hover
    simp [(run_of_writing hnext rfl hlasts hover).1, answer?] at hanswer
  | staleSuccess generation link =>
    rw [hstep] at hlasts
    rw [run_cons, hstep] at hanswer hover
    obtain ⟨record, hrun⟩ := run_of_closing rfl hlasts hover
    simp [hrun, answers_resume, answer?] at hanswer
  | peerClosed status panicking link =>
    rw [hstep] at hlasts
    rw [run_cons, hstep] at hanswer hover
    obtain ⟨record, hrun⟩ := run_of_closing rfl hlasts hover
    simp [hrun, answers_resume, answer?] at hanswer
  | wrote _ busy | writeLost _ _ _ busy | drained _ _ busy | drainedOne _ _ _ _ _ busy
      | drainLost _ _ _ _ busy | released _ _ _ busy =>
    exact absurd h.ready (by simp [busy])
  | ignored _ stray =>
    rw [h.run_eq_step (by simp [hstep, Busy, h.ready]), hstep] at hanswer
    simp at hanswer
  | _ =>
    rw [h.run_eq_step (by simp [hstep, Busy, beginAttempt, h.ready]), hstep] at hanswer
    simp [answer?] at hanswer

theorem Grounds.answers {call : CallId} {result : Except Failure Unit}
    (h : m.Grounds input outcomes call result) (hhandling : m.Handling input outcomes)
    (hsound : m.Sound) : (call, result) ∈ answers (m.run (input :: outcomes)).2 := by
  have ready := hhandling.ready
  cases h with
  | live asked stands =>
    subst asked
    have hstep : m.step (.command (.connect call)) =
        (m, [.log (.handling .connect m.phase), .answer call (.ok ())]) := by
      simp [step, ready, receive, handleCommand, serve, connect, stands, Command.outline,
        Reaction.after]
    rw [hhandling.run_eq_step (by simp [hstep, Busy, ready]), hstep]
    simp [answer?]
  | opened link waits success written =>
    subst success
    have hends := hhandling.of_success hsound (hsound.connecting_of_waits ready waits)
    rw [(hends.written written).2, mem_map_call]
    exact ⟨waits, rfl⟩
  | failed cause waits failure left =>
    subst failure
    have connecting := hsound.connecting_of_waits ready waits
    have hafter := hhandling.of_fails hsound ⟨ready, connecting, rfl⟩
    rw [← (hsound.settled ready).turnedAway_append_carriedOver connecting, List.mem_append,
      ← hafter.waiters_eq] at waits
    rw [hafter.answers_eq, mem_map_call]
    exact ⟨waits.resolve_right left, rfl⟩
  | lost link error waits success unwritten =>
    subst success
    have hends := hhandling.of_success hsound (hsound.connecting_of_waits ready waits)
    rw [(hends.lost ⟨error, unwritten⟩).2.1, mem_map_call]
    exact ⟨waits, rfl⟩
  | dismissed record rest waits order =>
    rw [(hhandling.of_dismissal hsound order).2]
    exact .inl ⟨waits, rfl⟩

/-! ## Events that go along with answers -/

/-- The link of an attempt in flight that is lost within its drain is never announced, neither
before that nor after it. -/
theorem Sound.not_opened_of_lost (h : m.Sound) {past outcomes later : List Input} {link : LinkId}
    {error : Failure}
    (hhandling : (m.run past).1.Handling
      (.attemptFinished (m.run past).1.generation (.ok link)) outcomes)
    (connecting : (m.run past).1.phase = .connecting)
    (unwritten : .written (.error error) ∈ outcomes) (flushed : Nat) :
    .opened (m.run past).1.generation flushed ∉
      events (m.run (past ++ .attemptFinished (m.run past).1.generation (.ok link) ::
        (outcomes ++ later))).2 := by
  obtain ⟨⟨reason, hevents⟩, -, hdecided⟩ :=
    (hhandling.of_success (h.run past) connecting).lost ⟨error, unwritten⟩
  have hlast := (h.run past).run
    (.attemptFinished (m.run past).1.generation (.ok link) :: outcomes)
  rw [run_append, ← List.cons_append, run_append]
  simp only [Reaction.after_snd, seen_append, List.mem_append, not_or]
  refine ⟨?_, ?_, (hlast.not_opened_of_decided hdecided later).2 flushed⟩
  · -- had it been announced earlier, the attempt would not be in flight any more
    intro hmem
    obtain hlt | ⟨-, hnot⟩ := h.decided_of_opened hmem
    · exact Nat.lt_irrefl _ hlt
    · exact hnot (.inl connecting)
  · simp [hevents]

/-- An answer to a caller who asked for the connection goes along with the events that say the
same. -/
theorem Sound.announced (h : m.Sound) {past later : List Input}
    (hhandling : (m.run past).1.Handling input outcomes) {call : CallId}
    {result : Except Failure Unit} (hgrounds : (m.run past).1.Grounds input outcomes call result) :
    (m.run past).1.Announced ((m.run past).1.run (input :: outcomes)).2
      (m.run (past ++ input :: (outcomes ++ later))).2 result := by
  have hpast := h.run past
  have ready := hhandling.ready
  cases hgrounds with
  | live asked stands => exact .inl stands
  | opened link waits success written =>
    subst success
    obtain ⟨⟨flushed, hevents⟩, -⟩ :=
      (hhandling.of_success hpast (hpast.connecting_of_waits ready waits)).written written
    exact .inr ⟨flushed, by rw [← mem_events, hevents]; exact List.mem_singleton_self _⟩
  | failed cause waits failure left =>
    subst failure
    have hafter := hhandling.of_fails hpast ⟨ready, hpast.connecting_of_waits ready waits, rfl⟩
    refine ⟨?_, fun other given hgiven => ?_⟩
    · rw [← mem_events, hafter.events_eq]
      exact List.mem_cons_self
    · rw [← mem_answers, hafter.answers_eq, mem_map_call] at hgiven
      exact hgiven.2
  | lost link error waits success unwritten =>
    subst success
    have connecting := hpast.connecting_of_waits ready waits
    obtain ⟨⟨reason, hevents⟩, -⟩ := (hhandling.of_success hpast connecting).lost ⟨error, unwritten⟩
    refine ⟨⟨reason, by rw [← mem_events, hevents]; exact List.mem_singleton_self _⟩,
      fun flushed => ?_⟩
    rw [← mem_events]
    exact h.not_opened_of_lost hhandling connecting unwritten flushed
  | dismissed record rest waits order =>
    exact ⟨_, by
      rw [← mem_events, (hhandling.of_dismissal hpast order).1]
      exact List.mem_singleton_self _⟩

/-! ## The answer to a caller -/

theorem owed_of_not_busy (finished : ¬m.Busy) : m.owed = m.waiting := by
  unfold owed
  split
  · rename_i busy
    exact absurd (by simp [Busy, busy]) finished
  · exact List.append_nil _

theorem Sound.ready_of_waits (h : m.Sound) (finished : ¬m.Busy) {call : CallId}
    (waits : call ∈ m.waiting) : m.activity = .ready ∧ m.phase = .connecting := by
  by_cases ready : m.activity = .ready
  · exact ⟨ready, h.connecting_of_waits ready waits⟩
  · have ended : m.activity = .ended := by
      by_contra ended
      exact finished ⟨ready, ended⟩
    obtain ⟨hsettled, idle⟩ := h.settled_of_ended ended
    have hwaiters := hsettled.waiters_eq (by rw [idle]; decide)
    rw [waiting, hwaiters] at waits
    exact absurd waits List.not_mem_nil

theorem owed_run (url : String) (inputs : List Input) :
    (answered (run { url } inputs).2 ++ (run { url } inputs).1.owed).Perm
      ((handled { url } inputs).filterMap Command.call?) :=
  (sound_new url).owed_run inputs

/-- As long as every call has a number of its own, nobody waits twice. -/
theorem nodup_waiting (url : String) {inputs : List Input}
    (hunique : ((handled { url } inputs).filterMap Command.call?).Nodup) :
    (run { url } inputs).1.waiting.Nodup := by
  have hnodup := (List.nodup_append.mp ((owed_run url inputs).nodup_iff.mpr hunique)).2.1
  exact (List.nodup_append.mp hnodup).1

theorem mem_handled_of_waits (url : String) {inputs : List Input} {call : CallId}
    (waits : call ∈ (run { url } inputs).1.waiting) :
    call ∈ (handled { url } inputs).filterMap Command.call? :=
  (owed_run url inputs).mem_iff.mp (List.mem_append_right _ (List.mem_append_left _ waits))

/-- An answer to a caller who asked for the connection is given by a handling that has grounds for
it. -/
theorem exists_grounds (url : String) {inputs : List Input} {call : CallId}
    (hunique : ((handled { url } inputs).filterMap Command.call?).Nodup)
    (hasked : .connect call ∈ handled { url } inputs) {result : Except Failure Unit}
    (hanswer : .answer call result ∈ (run { url } inputs).2) :
    ∃ past input outcomes later, inputs = past ++ input :: (outcomes ++ later) ∧
      (run { url } past).1.Handling input outcomes ∧
      (run { url } past).1.Grounds input outcomes call result := by
  obtain ⟨past, input, outcomes, later, rfl, hhandling, hmem⟩ :=
    exists_handling_of_answer rfl (sound_new url) hanswer
  have hwaiting : (run { url } past).1.waiting.Nodup := by
    rw [handled_append, List.filterMap_append] at hunique
    exact nodup_waiting url (List.nodup_append.mp hunique).1
  rw [← mem_answers] at hmem
  obtain hgrounds | ⟨rfl, -⟩ := hhandling.grounds (sound_run url past) hwaiting hmem
  · exact ⟨past, input, outcomes, later, rfl, hhandling, hgrounds⟩
  · -- a reset that was asked for would be another call under the same number
    have hclosed : .close call ∈ handled { url }
        (past ++ .command (.close call) :: (outcomes ++ later)) :=
      mem_handled_of_ready _ hhandling.ready
    exact absurd (eq_of_nodup_filterMap hunique hasked hclosed rfl rfl) (by simp)

/-- Between two inputs a caller who asked for the connection has been answered or waits. -/
theorem unanswered_iff_waits (url : String) {inputs : List Input} {call : CallId}
    (hunique : ((handled { url } inputs).filterMap Command.call?).Nodup)
    (hasked : .connect call ∈ handled { url } inputs) (finished : ¬(run { url } inputs).1.Busy) :
    call ∉ answered (run { url } inputs).2 ↔ call ∈ (run { url } inputs).1.waiting := by
  have howed := owed_run url inputs
  have hnodup := howed.nodup_iff.mpr hunique
  have hcalled : call ∈ answered (run { url } inputs).2 ++ (run { url } inputs).1.owed :=
    howed.mem_iff.mpr (List.mem_filterMap.mpr ⟨_, hasked, rfl⟩)
  rw [owed_of_not_busy finished] at hnodup hcalled
  constructor
  · intro hnone
    exact (List.mem_append.mp hcalled).resolve_left hnone
  · intro waits hanswered
    exact (List.nodup_append.mp hnodup).2.2 call hanswered call waits rfl

/-- **The answer to a caller.** Every call has a number of its own. Then a caller who asked for the
connection is answered at most once, and is without an answer between two inputs exactly while
waiting for an attempt in flight. An answer is given if and only if there are grounds for it, by the
handling that has them, and goes along with the events that say the same. -/
theorem connect_answered (url : String) (inputs : List Input) (call : CallId)
    (hunique : ((handled { url } inputs).filterMap Command.call?).Nodup)
    (hasked : .connect call ∈ handled { url } inputs) :
    let m := (run { url } inputs).1
    let effects := (run { url } inputs).2
    (answered effects).count call ≤ 1 ∧
      (¬m.Busy → (call ∉ answered effects ↔ call ∈ m.waiting) ∧
        (call ∈ m.waiting → m.activity = .ready ∧ m.phase = .connecting)) ∧
      (∀ result, .answer call result ∈ effects ↔
        ∃ past input outcomes later, inputs = past ++ input :: (outcomes ++ later) ∧
          (run { url } past).1.Handling input outcomes ∧
          (run { url } past).1.Grounds input outcomes call result) ∧
      ∀ past input outcomes later, inputs = past ++ input :: (outcomes ++ later) →
        (run { url } past).1.Handling input outcomes →
        ∀ result, (run { url } past).1.Grounds input outcomes call result →
          let handling := ((run { url } past).1.run (input :: outcomes)).2
          .answer call result ∈ handling ∧
            (run { url } past).1.Announced handling effects result := by
  intro m effects
  have hnodup := (owed_run url inputs).nodup_iff.mpr hunique
  refine ⟨List.nodup_iff_count.mp (List.nodup_append.mp hnodup).1 call, ?_, ?_, ?_⟩
  · intro finished
    exact ⟨unanswered_iff_waits url hunique hasked finished,
      (sound_run url inputs).ready_of_waits finished⟩
  · intro result
    refine ⟨exists_grounds url hunique hasked, ?_⟩
    rintro ⟨past, input, outcomes, later, rfl, hhandling, hgrounds⟩
    have hmem := hgrounds.answers hhandling (sound_run url past)
    exact mem_run_of_mem_part _ (mem_answers.mp hmem)
  · rintro past input outcomes later rfl hhandling result hgrounds
    exact ⟨mem_answers.mp (hgrounds.answers hhandling (sound_run url past)),
      (sound_new url).announced hhandling hgrounds⟩

/-- A caller who had joined an attempt that failed is answered when the next one opens a link. -/
theorem connect_answered_carried_over :
    let url := "ws://localhost:80/"
    let past : List Input := [.command (.connect 0), .command (.connect 1),
      .attemptFinished 1 (.error .connectTimeout)]
    let m := (run { url } past).1
    let success : Input := .attemptFinished 2 (.ok 7)
    let effects := (run { url } (past ++ [success])).2
    (answered effects).count 1 ≤ 1 ∧ 1 ∈ m.waiting ∧ m.phase = .connecting ∧
      m.Grounds success [] 1 (.ok ()) ∧ .answer 1 (.ok ()) ∈ (m.run [success]).2 ∧
      m.Announced (m.run [success]).2 effects (.ok ()) := by
  intro url past m success effects
  have hwaiting := connect_answered url past 1 (by decide) (by decide)
  have hanswered := connect_answered url (past ++ [success]) 1 (by decide) (by decide)
  have hhandling : m.Handling success [] := ⟨rfl, trivial, fun busy => busy.1 rfl⟩
  have hgrounds : m.Grounds success [] 1 (.ok ()) :=
    .opened 7 (by decide) rfl fun _ => List.not_mem_nil
  have hwaits : 1 ∈ m.waiting := (hwaiting.2.1 fun busy => busy.1 rfl).1.mp (by decide)
  obtain ⟨hanswer, hannounced⟩ :=
    hanswered.2.2.2 past success [] [] rfl hhandling (.ok ()) hgrounds
  exact ⟨hanswered.1, hwaits, ((hwaiting.2.1 fun busy => busy.1 rfl).2 hwaits).2, hgrounds, hanswer,
    hannounced⟩

end Manager

end PersistentLink
