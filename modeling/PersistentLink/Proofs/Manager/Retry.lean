import PersistentLink.Proofs.Manager.Answers

/-!
# Attempts that are made again

A failed attempt is made again for the callers who had joined it, and only once for each of them.
Callers may join every attempt of a chain, so a chain can be of any length; but each attempt of it
needs a command of its own, and a chain that nobody joins ends with its next attempt.

## Main definitions

- `Command.caller?`, `Command.isRequest`: commands that ask for a connection
- `Manager.StartedBy`, `Manager.Origin`: what started an attempt, and when
- `Manager.Since`: the generation in which a caller came
- `Manager.chance`: whether some caller would be carried over
- `Manager.Parting`: what becomes of the callers when an attempt fails

## Main results

- `Manager.Sound.exists_origin`: an attempt in flight was started by an earlier step of the run, and
  who waits for it was there then or has joined it since
- `Manager.Origin.parting`: who was there at the start is turned away, who has joined is carried
  over
- `Manager.generation_of_waits`, `Manager.not_carriesOver_again`: a caller waits for two attempts at
  most, and is carried over once at most
- `Manager.Sound.attempts_run`: attempts are paid for by requests
- `Manager.retried_once`: the rule, for whole runs
-/

namespace PersistentLink

namespace Command

/-- The caller who asks for the connection by a command. -/
def caller? : Command → Option CallId
  | .connect call => some call
  | _ => none

/-- Whether a command can start an attempt. -/
def isRequest : Command → Bool
  | .connect _ | .send _ => true
  | .close _ | .addObserver _ | .snapshot _ => false

end Command

namespace Manager

open Effect

variable {m : Manager} {input : Input} {reaction : Reaction}

/-! ## How attempts start -/

/-- What can start an attempt, by which trigger, and the callers who are there when it starts. -/
inductive StartedBy (m : Manager) : Input → Trigger → List CallId → Prop
  | caller (call : CallId) : StartedBy m (.command (.connect call)) .caller [call]
  | payload (payload : Payload) : StartedBy m (.command (.send payload)) .send []
  | failure {input : Input} {cause : Failure} {calls : List CallId} (fails : m.Fails input cause)
    (somebody : calls ≠ []) : StartedBy m input .retry calls

/-- There is nothing else that starts an attempt, and nobody who is there when it starts will be
carried over. -/
theorem Turn.of_start (turn : Turn m input reaction) (hsound : m.Sound) {generation : Nat}
    (h : .startAttempt generation ∈ reaction.2) :
    reaction.1.generation = generation ∧
      (∀ waiter ∈ reaction.1.waiters, Waiter.isCarriedOver waiter = false) ∧
      StartedBy m input reaction.1.trigger reaction.1.waiting := by
  rw [← mem_attempts] at h
  cases turn with
  | called call =>
    obtain rfl : generation = m.generation + 1 := by simpa [attempt?] using h
    exact ⟨rfl, by simp [beginAttempt, Waiter.initiator, Waiter.isCarriedOver], .caller call⟩
  | summoned payload ready free =>
    obtain rfl : generation = m.generation + 1 := by simpa [attempt?] using h
    -- nobody waits while no attempt is in flight
    have hwaiters := (hsound.settled ready).waiters_eq (mayStartAttempt_iff.mp free).2
    refine ⟨rfl, by simp [beginAttempt, hwaiters], ?_⟩
    simpa [beginAttempt, waiting, hwaiters] using StartedBy.payload payload
  | failedRetrying cause ready connecting somebody =>
    obtain rfl : generation = m.generation + 1 := by simpa [attempt?] using h
    refine ⟨rfl, ?_, .failure ⟨ready, connecting, rfl⟩ ?_⟩
    · intro waiter hmem
      obtain ⟨earlier, -, rfl⟩ := List.mem_map.mp hmem
      simp [Waiter.isCarriedOver]
    · simpa [beginAttempt, waiting] using somebody
  | dismissed order => cases order <;> simp [attempt?, attempts_resume, apply_ite] at h
  | released generation rest outcome busy =>
    cases rest with
    | attempt trigger => exact absurd busy (hsound.not_closing_for_attempt _ _)
    | _ => simp [attempt?, attempts_resume] at h
  | _ => simp [attempt?] at h

/-- While an attempt is in flight, it has just been started, or callers may have joined it. -/
theorem Turn.of_connecting (turn : Turn m input reaction) (hsound : m.Sound)
    (connecting : reaction.1.phase = .connecting) :
    .startAttempt reaction.1.generation ∈ reaction.2 ∨
      m.phase = .connecting ∧ reaction.1.generation = m.generation ∧
        reaction.1.trigger = m.trigger ∧
        reaction.1.waiters =
          m.waiters ++ ((m.heard input).toList.filterMap Command.caller?).map .joiner := by
  cases turn with
  | called | summoned | failedRetrying =>
    left
    simp [← mem_attempts, beginAttempt]
  | joined _ ready | queued _ ready | registered _ ready | reported _ ready
      | staleSuccess _ _ ready | staleFailure _ _ ready | received _ _ ready
      | alreadyDown _ _ ready | staleEvent _ _ _ ready =>
    right
    simpa [heard, ready, Command.caller?] using connecting
  | welcomed | handedOver | dismissing | peerClosed => simp_all
  | wrote _ busy | writeLost _ _ _ busy =>
    right
    simpa [heard, busy] using connecting
  | drained _ _ busy | drainedOne _ _ _ _ _ busy | drainLost _ _ _ _ busy =>
    have live := (hsound.linked busy).phase_eq
    exact absurd (live.symm.trans connecting) (by decide)
  | opened | openedDraining | failed => simp at connecting
  | dismissed order => cases order <;> simp [resume, settleReset] at connecting
  | released generation rest outcome busy =>
    cases rest with
    | nothing => exact .inr ⟨connecting, rfl, rfl, by simp [heard, busy, resume]⟩
    | attempt => exact .inl (by simp [← mem_attempts, resume, beginAttempt])
    | _ => simp [resume, settleLost, settleClosed, settleReset] at connecting
  | ignored _ stray => exact .inr ⟨connecting, rfl, rfl, by simp [heard_of_stray stray]⟩

/-- How the attempt in flight after a run came about: a step of the run started it, and callers
have joined it since. -/
structure Origin (m : Manager) (inputs before : List Input) (start : Input) (since : List Input) :
    Prop where
  inputs_eq : inputs = before ++ start :: since
  started : .startAttempt (m.run inputs).1.generation ∈ ((m.run before).1.step start).2
  trigger_eq : (m.run inputs).1.trigger = ((m.run before).1.step start).1.trigger
  waiters_eq : (m.run inputs).1.waiters = ((m.run before).1.step start).1.waiters ++
    ((((m.run before).1.step start).1.handled since).filterMap Command.caller?).map .joiner

/-- An attempt in flight was started in the course of the run. -/
theorem Sound.exists_origin (h : m.Sound) (hfree : m.phase ≠ .connecting) {inputs : List Input}
    (connecting : (m.run inputs).1.phase = .connecting) :
    ∃ before start since, m.Origin inputs before start since := by
  induction inputs using List.reverseRecOn with
  | nil => exact absurd connecting hfree
  | append_singleton inputs input ih =>
    have hturn := (h.run inputs).turn input
    rw [run_concat_fst] at connecting
    obtain hstarted | ⟨hbefore, hgeneration, htrigger, hwaiters⟩ :=
      hturn.of_connecting (h.run inputs) connecting
    · refine ⟨inputs, input, [], rfl, ?_, ?_, ?_⟩
      · rwa [run_concat_fst]
      · rw [run_concat_fst]
      · simp
    · obtain ⟨before, start, since, horigin⟩ := ih hbefore
      refine ⟨before, start, since ++ [input], by simp [horigin.inputs_eq], ?_, ?_, ?_⟩
      · rw [run_concat_fst, hgeneration]
        exact horigin.started
      · rw [run_concat_fst, htrigger]
        exact horigin.trigger_eq
      · have hsame : (((m.run before).1.step start).1.run since).1 = (m.run inputs).1 := by
          rw [horigin.inputs_eq, run_append, run_cons]
          rfl
        rw [run_concat_fst, hwaiters, horigin.waiters_eq, handled_concat, hsame,
          List.filterMap_append, List.map_append, List.append_assoc]

/-! ## How often a caller waits -/

/-- A caller came in the given generation, or was carried over from it once. -/
def Since (m : Manager) (waiter : Waiter) (generation : Nat) : Prop :=
  m.generation = if waiter.retried then generation + 1 else generation

/-- Whoever waits after a step had waited before, since the same generation, or has just come. -/
theorem Turn.of_waiter (turn : Turn m input reaction) (hsound : m.Sound) {waiter : Waiter}
    (hmem : waiter ∈ reaction.1.waiters) :
    (∃ before ∈ m.waiters, before.call = waiter.call ∧
        ∀ generation, m.Since before generation → reaction.1.Since waiter generation) ∨
      m.heard input = some (.connect waiter.call) ∧
        reaction.1.Since waiter reaction.1.generation := by
  cases turn with
  | called call ready =>
    obtain rfl := List.mem_singleton.mp hmem
    exact .inr ⟨m.heard_eq_some.mpr ⟨ready, rfl⟩, rfl⟩
  | joined call ready =>
    obtain hearlier | hnew := List.mem_append.mp hmem
    · exact .inl ⟨waiter, hearlier, rfl, fun _ => id⟩
    · obtain rfl := List.mem_singleton.mp hnew
      exact .inr ⟨m.heard_eq_some.mpr ⟨ready, rfl⟩, rfl⟩
  | summoned payload ready free =>
    have hwaiters := (hsound.settled ready).waiters_eq (mayStartAttempt_iff.mp free).2
    simp [beginAttempt, hwaiters] at hmem
  | failedRetrying =>
    obtain ⟨before, hbefore, rfl⟩ := List.mem_map.mp hmem
    obtain ⟨hwaits, hover⟩ := List.mem_filter.mp hbefore
    refine .inl ⟨before, hwaits, rfl, fun generation hsince => ?_⟩
    have hretried : before.retried = false := by
      simp only [Waiter.isCarriedOver, Bool.and_eq_true, Bool.not_eq_true'] at hover
      exact hover.2
    simp only [Since, hretried, Bool.false_eq_true, if_false] at hsince
    simp [Since, beginAttempt, hsince]
  | opened | failed | drained => simp at hmem
  | dismissed order => cases order <;> simp [resume, settleReset] at hmem
  | released generation rest outcome busy =>
    cases rest with
    | attempt => exact absurd busy (hsound.not_closing_for_attempt _ _)
    | linkLost error draining =>
      cases draining with
      | true => simp [resume, settleLost] at hmem
      | false => exact .inl ⟨waiter, hmem, rfl, fun _ => id⟩
    | linkClosed | nothing => exact .inl ⟨waiter, hmem, rfl, fun _ => id⟩
    | reset | shutdown => simp [resume, settleReset] at hmem
  | _ => exact .inl ⟨waiter, hmem, rfl, fun _ => id⟩

theorem eq_or_exists_of_concat_eq {inputs past later : List Input}
    (h : inputs ++ [input] = past ++ later) :
    past = inputs ++ [input] ∨ ∃ rest, inputs = past ++ rest := by
  obtain rfl | ⟨rest, last, rfl⟩ := List.eq_nil_or_concat later
  · exact .inl (by simpa using h.symm)
  · rw [List.concat_eq_append, ← List.append_assoc] at h
    exact .inr ⟨rest, (List.append_inj' h rfl).1⟩

/-- As long as every call has a number of its own, a caller waits since one generation in all of a
run. -/
theorem exists_since (url : String) (call : CallId) {inputs : List Input}
    (hunique : ((handled { url } inputs).filterMap Command.call?).Nodup) :
    ∃ first, ∀ past later, inputs = past ++ later → ∀ waiter ∈ (run { url } past).1.waiters,
      waiter.call = call → (run { url } past).1.Since waiter first := by
  induction inputs using List.reverseRecOn with
  | nil =>
    refine ⟨0, fun past later hpast waiter hmem => ?_⟩
    obtain ⟨rfl, -⟩ := List.nil_eq_append_iff.mp hpast
    exact absurd hmem List.not_mem_nil
  | append_singleton inputs input ih =>
    have hsound := sound_run url inputs
    rw [handled_concat, List.filterMap_append] at hunique
    obtain ⟨hearlier, -, hnew⟩ := List.nodup_append.mp hunique
    -- before the call is handled nobody waits under its number, and after it nobody else comes
    by_cases hheard : (run { url } inputs).1.heard input = some (.connect call)
    · have hfirst {past rest : List Input} (hpast : inputs = past ++ rest) :
          call ∉ (run { url } past).1.waiting := by
        intro waits
        subst hpast
        have hhandled := mem_handled_of_waits url waits
        refine hnew call ?_ call ?_ rfl
        · rw [handled_append, List.filterMap_append]
          exact List.mem_append_left _ hhandled
        · simp [hheard, Command.call?]
      refine ⟨((run { url } inputs).1.step input).1.generation, ?_⟩
      rintro past later hpast waiter hmem rfl
      obtain rfl | ⟨rest, hrest⟩ := eq_or_exists_of_concat_eq hpast
      · rw [run_concat_fst] at hmem ⊢
        obtain ⟨before, hbefore, hcall, -⟩ | ⟨-, hsince⟩ :=
          (hsound.turn input).of_waiter hsound hmem
        · exact absurd (hcall ▸ List.mem_map_of_mem hbefore) (hfirst (List.append_nil _).symm)
        · exact hsince
      · exact absurd (List.mem_map_of_mem hmem) (hfirst hrest)
    · obtain ⟨first, hsince⟩ := ih hearlier
      refine ⟨first, ?_⟩
      rintro past later hpast waiter hmem rfl
      obtain rfl | ⟨rest, hrest⟩ := eq_or_exists_of_concat_eq hpast
      · rw [run_concat_fst] at hmem ⊢
        obtain ⟨before, hbefore, hcall, hkept⟩ | ⟨hcame, -⟩ :=
          (hsound.turn input).of_waiter hsound hmem
        · exact hkept first (hsince inputs [] (List.append_nil _).symm before hbefore hcall)
        · exact absurd hcame hheard
      · exact hsince past rest hrest waiter hmem rfl

/-- The attempt in flight fails, and a caller is carried over to the next one. -/
def CarriesOver (m : Manager) (input : Input) (call : CallId) : Prop :=
  (∃ cause, m.Fails input cause) ∧ call ∈ (m.step input).1.waiting

/-- A caller is carried over from the generation in which the call came in. -/
theorem Sound.generation_of_carriesOver (h : m.Sound) {call : CallId}
    (hcarries : m.CarriesOver input call) {first : Nat}
    (hsince : ∀ waiter ∈ (m.step input).1.waiters, waiter.call = call →
      (m.step input).1.Since waiter first) :
    m.generation = first ∧ (m.step input).1.generation = first + 1 := by
  obtain ⟨⟨cause, hfails⟩, waits⟩ := hcarries
  have hafter := h.step_of_fails hfails
  obtain ⟨waiter, hmem, hcall⟩ := List.mem_map.mp waits
  have hlater := hsince waiter hmem hcall
  rw [hafter.waiters_eq] at hmem
  have hstarted : .startAttempt (m.generation + 1) ∈ (m.step input).2 := by
    rw [← mem_attempts, hafter.attempts_eq, if_neg (List.ne_nil_of_mem hmem)]
    exact List.mem_singleton_self _
  have hgeneration := ((h.turn input).of_start h hstarted).1
  obtain ⟨earlier, -, rfl⟩ := List.mem_map.mp hmem
  simp only [Since, if_true] at hlater
  omega

/-! ## How many attempts there are -/

/-- One if the attempt would be made again should it fail, and zero if it would not. -/
def chance (m : Manager) : Nat :=
  if m.carriedOver = [] then 0 else 1

theorem chance_le_one (m : Manager) : m.chance ≤ 1 := by
  unfold chance
  split <;> decide

theorem chance_eq_zero (h : ∀ waiter ∈ m.waiters, Waiter.isCarriedOver waiter = false) :
    m.chance = 0 := by
  rw [chance, if_pos]
  simpa [carriedOver, List.filter_eq_nil_iff] using h

theorem chance_congr {other : Manager} (h : other.waiters = m.waiters) :
    other.chance = m.chance := by
  rw [chance, chance, carriedOver, carriedOver, h]

theorem chance_resume_le (rest : Resume) : (m.resume rest).1.chance ≤ m.chance := by
  cases rest with
  | linkLost error draining =>
    cases draining with
    | true =>
      rw [chance_eq_zero (by simp [resume, settleLost])]
      exact Nat.zero_le _
    | false => exact Nat.le_of_eq (chance_congr rfl)
  | reset | shutdown =>
    rw [chance_eq_zero (by simp [resume, settleReset])]
    exact Nat.zero_le _
  | linkClosed | attempt | nothing => exact Nat.le_of_eq (chance_congr rfl)

/-- An attempt that starts uses up the chance of the one before, or a request. -/
theorem Turn.attempts_add_chance (turn : Turn m input reaction) (hsound : m.Sound) :
    (attempts reaction.2).length + reaction.1.chance ≤
      m.chance + (m.heard input).toList.countP Command.isRequest := by
  cases turn with
  | joined call ready =>
    have hheard : m.heard (.command (.connect call)) = some (.connect call) :=
      m.heard_eq_some.mpr ⟨ready, rfl⟩
    have hchance := chance_le_one { m with waiters := m.waiters ++ [.joiner call] }
    simpa [attempt?, hheard, Command.isRequest] using Nat.le_trans hchance (Nat.le_add_left _ _)
  | called call ready =>
    have hheard : m.heard (.command (.connect call)) = some (.connect call) :=
      m.heard_eq_some.mpr ⟨ready, rfl⟩
    rw [Reaction.after_fst, chance_eq_zero]
    · simp [attempt?, hheard, Command.isRequest]
    · simp [beginAttempt, Waiter.initiator, Waiter.isCarriedOver]
  | summoned payload ready free =>
    have hheard : m.heard (.command (.send payload)) = some (.send payload) :=
      m.heard_eq_some.mpr ⟨ready, rfl⟩
    have hwaiters := (hsound.settled ready).waiters_eq (mayStartAttempt_iff.mp free).2
    rw [Reaction.after_fst, chance_eq_zero]
    · simp [attempt?, hheard, Command.isRequest]
    · simp [beginAttempt, hwaiters]
  | failedRetrying cause ready connecting somebody =>
    rw [Reaction.after_fst, chance_eq_zero]
    · simp [attempt?, chance, somebody]
    · intro waiter hmem
      obtain ⟨earlier, -, rfl⟩ := List.mem_map.mp hmem
      simp [Waiter.isCarriedOver]
  | opened | failed | drained =>
    rw [chance_eq_zero (by simp)]
    simp [attempt?]
  | dismissed order =>
    have hchance (rest : Resume) : ({ m with attempting := false }.resume rest).1.chance ≤
        m.chance := chance_resume_le rest
    cases order with
    | close call =>
      simpa [attempt?, attempts_resume, apply_ite] using Nat.le_add_right_of_le (hchance _)
    | shutdown =>
      simpa [attempt?, attempts_resume, apply_ite] using Nat.le_add_right_of_le (hchance _)
  | released generation rest outcome busy =>
    have hchance : (m.resume rest).1.chance ≤ m.chance := chance_resume_le rest
    cases rest with
    | attempt => exact absurd busy (hsound.not_closing_for_attempt _ _)
    | _ => simpa [attempt?, attempts_resume] using Nat.le_add_right_of_le hchance
  | welcomed | reported | staleFailure | received | alreadyDown | staleEvent | ignored =>
    simp [attempt?]
  | handedOver | queued | registered | dismissing | staleSuccess | openedDraining | peerClosed
      | wrote | writeLost | drainedOne | drainLost =>
    refine Nat.le_trans (Nat.le_of_eq ?_) (Nat.le_add_right _ _)
    simp only [List.append_nil, seen_cons, seen_append, seen_transition, seen_nil, attempt?,
      Option.toList_none, List.length_nil, Nat.zero_add, implies_true]
    exact chance_congr rfl

/-- Attempts are paid for by requests and by what chance there was. -/
theorem Sound.attempts_run (h : m.Sound) (inputs : List Input) :
    (attempts (m.run inputs).2).length + (m.run inputs).1.chance ≤
      m.chance + (m.handled inputs).countP Command.isRequest := by
  induction inputs using List.reverseRecOn with
  | nil => simp
  | append_singleton inputs input ih =>
    have hstep := ((h.run inputs).turn input).attempts_add_chance (h.run inputs)
    have hattempts : attempts (m.run (inputs ++ [input])).2 =
        attempts (m.run inputs).2 ++ attempts ((m.run inputs).1.step input).2 := by simp
    rw [run_concat_fst, handled_concat, hattempts, List.length_append, List.countP_append]
    omega

/-! ## The rule for whole runs -/

/-- What becomes of the callers when an attempt fails: of those who wait some were present when it
started, and the others have joined it. -/
structure Parting (m : Manager) (cause : Failure) (present joined : List CallId)
    (next : Reaction) : Prop where
  waiting_eq : m.waiting = present ++ joined
  /-- exactly those who were present are told why the attempt failed -/
  answers_eq : answers next.2 = present.map fun call => (call, .error (.connectFailed cause))
  /-- exactly those who have joined wait on -/
  waiting_next : next.1.waiting = joined
  /-- another attempt starts if and only if somebody waits on -/
  attempts_eq : attempts next.2 = if joined = [] then [] else [m.generation + 1]
  retried : joined ≠ [] → .emit (.connecting (m.generation + 1) .retry) ∈ next.2

/-- Of the callers who wait for an attempt that fails, those who were there when it started are
turned away, and those who have joined it since are carried over. -/
theorem Origin.parting {inputs before since : List Input} {start : Input}
    (h : m.Origin inputs before start since) (hsound : m.Sound) {cause : Failure}
    (hfails : (m.run inputs).1.Fails input cause) :
    (m.run inputs).1.Parting cause ((m.run before).1.step start).1.waiting
      ((((m.run before).1.step start).1.handled since).filterMap Command.caller?)
      ((m.run inputs).1.step input) := by
  have hbefore := hsound.run before
  obtain ⟨-, hpresent, -⟩ := (hbefore.turn start).of_start hbefore h.started
  have haway := turnedAway_of_line h.waiters_eq hpresent
  have hover := carriedOver_of_line h.waiters_eq hpresent
  have hafter := (hsound.run inputs).step_of_fails hfails
  constructor
  · rw [waiting, h.waiters_eq]
    simp [waiting, Function.comp_def, Waiter.joiner]
  · rw [hafter.answers_eq, haway]
    simp [waiting, Function.comp_def]
  · rw [waiting, hafter.waiters_eq, hover]
    simp [Function.comp_def, Waiter.carried]
  · rw [hafter.attempts_eq, hover]
    simp only [List.map_eq_nil_iff]
  · intro hsomebody
    rw [← mem_events, hafter.events_eq, hover, if_neg (mt List.map_eq_nil_iff.mp hsomebody)]
    exact List.mem_cons_of_mem _ (List.mem_singleton_self _)

/-- A caller waits for at most two attempts, of which the second follows the first. -/
theorem generation_of_waits (url : String) {inputs : List Input}
    (hunique : ((handled { url } inputs).filterMap Command.call?).Nodup) (call : CallId) :
    ∃ first, ∀ past later, inputs = past ++ later → call ∈ (run { url } past).1.waiting →
      (run { url } past).1.generation = first ∨ (run { url } past).1.generation = first + 1 := by
  obtain ⟨first, hsince⟩ := exists_since url call hunique
  refine ⟨first, fun past later hinputs waits => ?_⟩
  obtain ⟨waiter, hmem, hcall⟩ := List.mem_map.mp waits
  have hwaits := hsince past later hinputs waiter hmem hcall
  rw [Since] at hwaits
  split at hwaits
  · exact .inr hwaits
  · exact .inl hwaits

/-- A caller who was carried over is not carried over again. -/
theorem not_carriesOver_again (url : String) {past between rest : List Input} {other : Input}
    (hunique : ((handled { url } (past ++ input :: (between ++ other :: rest))).filterMap
      Command.call?).Nodup) {call : CallId}
    (hfirst : (run { url } past).1.CarriesOver input call) :
    ¬(run { url } (past ++ input :: between)).1.CarriesOver other call := by
  intro hagain
  obtain ⟨first, hsince⟩ := exists_since url call hunique
  have hthen := hsince (past ++ [input]) (between ++ other :: rest) (by simp)
  have hlast := hsince (past ++ input :: between ++ [other]) rest (by simp)
  rw [run_concat_fst] at hthen hlast
  -- the first time leads from the generation in which the caller came to the next one
  have hpast := sound_run url past
  have hearlier := (hpast.generation_of_carriesOver hfirst hthen).2
  -- and the second time would start from the former again
  have hlater := ((sound_run url _).generation_of_carriesOver hagain hlast).1
  rw [run_append, Reaction.after_fst, run_cons, Reaction.after_fst] at hlater
  have hmonotone := (hpast.step input).generation_le_run between
  omega

/-- **The rule of one retry.** An attempt in flight was started by a caller, by a payload, or by the
failure of the attempt before. When it fails, exactly those callers are told so who were there when
it started; those who have joined it since are carried over, and if there are any the attempt is
made again at once. So a caller waits for two attempts at most, of which the second follows the
first, and is carried over once at most. Without a request one more attempt is started at most. In
all there are at most as many attempts as requests, and nothing else starts one. -/
theorem retried_once (url : String) :
    (∀ past input cause, (run { url } past).1.Fails input cause →
      ∃ before start since, Origin { url } past before start since ∧
        let earlier := (run { url } before).1
        let present := (earlier.step start).1.waiting
        let joined := ((earlier.step start).1.handled since).filterMap Command.caller?
        earlier.StartedBy start (run { url } past).1.trigger present ∧
          (run { url } past).1.Parting cause present joined ((run { url } past).1.step input)) ∧
      (∀ inputs, ((handled { url } inputs).filterMap Command.call?).Nodup → ∀ call,
        (∃ first, ∀ past later, inputs = past ++ later → call ∈ (run { url } past).1.waiting →
          (run { url } past).1.generation = first ∨
            (run { url } past).1.generation = first + 1) ∧
          ∀ past input between other rest, inputs = past ++ input :: (between ++ other :: rest) →
            (run { url } past).1.CarriesOver input call →
            ¬(run { url } (past ++ input :: between)).1.CarriesOver other call) ∧
      (∀ past later, (∀ command ∈ (run { url } past).1.handled later, command.isRequest = false) →
        (attempts ((run { url } past).1.run later).2).length ≤ 1) ∧
      (∀ inputs, (attempts (run { url } inputs).2).length ≤
        (handled { url } inputs).countP Command.isRequest) ∧
      ∀ past input generation, .startAttempt generation ∈ ((run { url } past).1.step input).2 →
        (run { url } past).1.StartedBy input ((run { url } past).1.step input).1.trigger
          ((run { url } past).1.step input).1.waiting := by
  have hnew : Sound { url } := sound_new url
  refine ⟨?_, ?_, ?_, ?_, ?_⟩
  · intro past input cause hfails
    obtain ⟨before, start, since, horigin⟩ := hnew.exists_origin (by simp) hfails.2.1
    have hbefore := hnew.run before
    have hstart := ((hbefore.turn start).of_start hbefore horigin.started).2.2
    rw [← horigin.trigger_eq] at hstart
    exact ⟨before, start, since, horigin, hstart, horigin.parting hnew hfails⟩
  · intro inputs hunique call
    refine ⟨generation_of_waits url hunique call, ?_⟩
    rintro past input between other rest rfl hfirst
    exact not_carriesOver_again url hunique hfirst
  · intro past later hnone
    have hattempts := (hnew.run past).attempts_run later
    have hrequests : ((run { url } past).1.handled later).countP Command.isRequest = 0 := by
      simpa [List.countP_eq_zero] using hnone
    have hchance := chance_le_one (run { url } past).1
    omega
  · intro inputs
    have hattempts := hnew.attempts_run inputs
    have hchance : chance { url } = 0 := rfl
    omega
  · intro past input generation hstart
    exact (((hnew.run past).turn input).of_start (hnew.run past) hstart).2.2

/-- A caller who has joined an attempt is carried over when it fails, and turned away when the next
one fails too. -/
theorem retried_once_joined :
    let url := "ws://localhost:80/"
    let past : List Input := [.command (.connect 0), .command (.connect 1)]
    let first : Input := .attemptFinished 1 (.error .connectTimeout)
    let second : Input := .attemptFinished 2 (.error .connectTimeout)
    let m := (run { url } past).1
    m.Fails first .connectTimeout ∧
      (∃ present joined, m.Parting .connectTimeout present joined (m.step first)) ∧
      m.CarriesOver first 1 ∧ ¬(run { url } (past ++ [first])).1.CarriesOver second 1 ∧
      (∃ origin, m.generation = origin ∨ m.generation = origin + 1) ∧
      (attempts (m.run [first, second]).2).length ≤ 1 ∧
      m.StartedBy first .retry [1] := by
  intro url past first second m
  obtain ⟨hfailed, hcallers, hquiet, -, hstarts⟩ := retried_once url
  have hfails : m.Fails first .connectTimeout := ⟨rfl, rfl, rfl⟩
  have hcarries : m.CarriesOver first 1 := ⟨⟨_, hfails⟩, by decide⟩
  obtain ⟨before, start, since, -, -, hparting⟩ := hfailed past first _ hfails
  obtain ⟨⟨origin, hwaits⟩, honce⟩ := hcallers (past ++ [first, second]) (by decide) 1
  have hstart : .startAttempt 2 ∈ (m.step first).2 := by
    rw [← mem_attempts]
    decide
  refine ⟨hfails, ⟨_, _, hparting⟩, hcarries, ?_, ⟨origin, ?_⟩, ?_, hstarts past first 2 hstart⟩
  · exact honce past first [] second [] rfl hcarries
  · exact hwaits past [first, second] rfl (by decide)
  · exact hquiet past [first, second] (by decide)

end Manager

end PersistentLink
