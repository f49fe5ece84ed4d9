import PersistentLink.Proofs.Ensemble.Timeline
import PersistentLink.Proofs.Manager.Attempts

/-!
# An attempt is reported as it ended

An attempt ends with what the transport answers, or because its limit is reached. It ends once, and
that is what the manager is told and what is announced of it. The transport may answer some time
before the attempt gets to see that. From then on the limit is of no account: an attempt that was
answered is not said to have taken too long.

## Main definitions

- `Ensemble.completions`: what the transport answered to attempts in flight, and when
- `Ensemble.endings`: how the attempts of a run ended
- `Ensemble.reported`: what the manager was told of them
- `Ensemble.Overdue`: an attempt gave up when its limit was reached
- `Ensemble.ReportsAnswers`: the answers are what is reported and announced

## Main results

- `Ensemble.orderly_induction`: what every move of orderly parties keeps holds after a run
- `Ensemble.endings_eq`: what was reported, and what waits to be, is how the attempts ended
- `Ensemble.Orderly.fate`: what a move means for the attempt in flight
- `Ensemble.endInTurn_of_run`: attempts end one after the other, each once
- `Ensemble.reported_of_completed`: of an attempt that was answered, the answer is reported
- `Ensemble.reported_of_announced`: what is announced of a failed attempt was reported
- `Ensemble.reportsAnswers_of_run`: what is reported was answered, or is overdue
-/

namespace PersistentLink

/-- What a message reports of an attempt. -/
def Message.report? : Message → Option (Nat × Except Failure LinkId)
  | attemptFinished generation result => some (generation, result)
  | linkEvent .. => none

/-- What an input reports of an attempt. -/
def Input.report? : Input → Option (Nat × Except Failure LinkId)
  | attemptFinished generation result => some (generation, result)
  | _ => none

@[simp]
theorem Message.report?_toInput (message : Message) (panicking : List ObserverId) :
    (message.toInput panicking).report? = message.report? := by
  cases message <;> rfl

namespace Ensemble

open Manager

/-- The attempt that made a call, and what that comes to. -/
def verdict (e : Ensemble) (number : Nat) (result : Except Failure LinkId) :
    List (Nat × Except Failure LinkId) :=
  (e.attempts.find? (·.number == some number)).toList.map (·.generation, result)

/-- What the transport answers to an attempt by a move. -/
def completion (e : Ensemble) : Move → List (Nat × Except Failure LinkId)
  | .answerOpen number result | .completeOpen number result => e.verdict number result
  | _ => []

/-- The answers of the transport to attempts in flight, each with the time at which the call was
over, and the generation of the attempt. The attempt may see the answer later, or never. -/
def completions : Ensemble → List Move → List (Nat × Nat × Except Failure LinkId) :=
  along fun e move => (e.completion move).map (e.clock, ·)

/-- The calls to the transport, each with its time and the generation of the attempt. -/
def openings : Ensemble → List Move → List (Nat × Nat) :=
  along fun e move =>
    match move with
    | .callOpen _ =>
      (e.attempts.find? (·.number.isNone)).toList.map fun attempt => (e.clock, attempt.generation)
    | _ => []

/-- The attempts that took too long, each with the time at which it gave up and its generation. -/
def expiries : Ensemble → List Move → List (Nat × Nat) :=
  along fun e move =>
    match move with
    | .expireOpen number =>
      (e.attempts.find? (·.number == some number)).toList.map fun attempt =>
        (e.clock, attempt.generation)
    | _ => []

/-- An attempt gave up when its limit, which counts from its call to the transport, was reached. -/
def Overdue (e : Ensemble) (moves : List Move) (generation : Nat) : Prop :=
  ∃ limit called time, e.limit = some limit ∧ (called, generation) ∈ e.openings moves ∧
    (time, generation) ∈ e.expiries moves ∧ min (called + limit) timeHorizon ≤ time

/-- How an attempt ends by a move. -/
def ending (e : Ensemble) : Move → List (Nat × Except Failure LinkId)
  | .answerOpen number result | .reportOpen number result => e.verdict number result
  | .expireOpen number => e.verdict number (.error .connectTimeout)
  | _ => []

/-- How the attempts of a run ended, in order, each with its generation. -/
def endings : Ensemble → List Move → List (Nat × Except Failure LinkId) :=
  along ending

/-- What the manager was told of attempts. -/
def reported (e : Ensemble) (moves : List Move) : List (Nat × Except Failure LinkId) :=
  (e.fed moves).filterMap Input.report?

/-- What the manager is told of an attempt, and what is announced if it has failed, is what the
transport has answered to it. If there was no answer, the attempt is overdue. -/
structure ReportsAnswers (start : Ensemble) (moves : List Move) : Prop where
  reported : ∀ time generation result, (time, generation, result) ∈ start.completions moves →
    ∀ other, (generation, other) ∈ start.reported moves → other = result
  announced : ∀ time generation result, (time, generation, result) ∈ start.completions moves →
    ∀ now trigger reason,
      (now, .emit (.connectFailed generation trigger reason)) ∈ start.timeline moves →
        ∃ error, result = .error error ∧ reason = error.message
  overdue : ∀ generation result, (generation, result) ∈ start.reported moves →
    (∃ time, (time, generation, result) ∈ start.completions moves) ∨
      result = .error .connectTimeout ∧ start.Overdue moves generation

variable {start e mid last next : Ensemble} {c : Custody} {moves : List Move} {move : Move}
  {effects first later : List Effect} {settings : Settings} {number : Nat} {attempt : Attempt}
  {result : Except Failure LinkId}

/-- After every run that pins no task, the parties are orderly. -/
theorem orderly_of_run (hrun : (ofSettings settings).run moves = some (last, effects))
    (unpinned : ∀ move ∈ moves, move.pins = false) : ∃ c, Orderly last c := by
  obtain ⟨c, -, horderly⟩ := (orderly_start settings).run .nil hrun unpinned
  exact ⟨c, horderly⟩

/-- What holds at the start and is kept by every move of orderly parties holds after a run that pins
no task. -/
theorem orderly_induction {motive : List Move → Ensemble → Prop}
    (nil : motive [] (ofSettings settings))
    (concat : ∀ {moves mid first move next later c},
      (ofSettings settings).run moves = some (mid, first) →
        (∀ move ∈ moves, move.pins = false) → move.pins = false → Orderly mid c →
          motive moves mid → mid.move move = some (next, later) → motive (moves ++ [move]) next)
    (hrun : (ofSettings settings).run moves = some (last, effects))
    (unpinned : ∀ move ∈ moves, move.pins = false) : motive moves last := by
  revert unpinned
  refine run_induction (motive := fun moves last =>
    (∀ move ∈ moves, move.pins = false) → motive moves last) (fun _ => nil) ?_ hrun
  intro moves mid first move next later hmoves ih hmove unpinned
  have hearlier : ∀ move ∈ moves, move.pins = false :=
    fun other hmem => unpinned other (List.mem_append_left _ hmem)
  obtain ⟨c, horderly⟩ := orderly_of_run hmoves hearlier
  exact concat hmoves hearlier (unpinned move (by simp)) horderly (ih hearlier) hmove

theorem Alone.verdict_eq (h : e.Alone c attempt) (hnumber : attempt.number = some number)
    (result : Except Failure LinkId) :
    e.verdict number result = [(attempt.generation, result)] := by
  simp [verdict, h.attempts_eq, hnumber]

/-- An attempt that ends leaves nothing but its report. -/
theorem Alone.endAttempt_eq (h : e.Alone c attempt) (calls : e.Calls number attempt)
    (result : Except Failure LinkId) :
    (e.withoutAttempt number).endAttempt attempt result =
      ({ e with
          attempts := []
          inbox := e.inbox ++ [.attemptFinished attempt.generation result] }, []) := by
  have hleft : e.attempts.filter (·.number != some number) = [] := by
    simp [h.attempts_eq, calls.number_eq]
  simp only [withoutAttempt, hleft, endAttempt, post, h.present, if_true]

/-! ## Every ending is reported -/

/-- A move takes at most one report from those that wait, and adds how an attempt ends by it. -/
theorem Orderly.report_eq (h : Orderly e c) {reaction : Ensemble × List Effect}
    (moved : e.Moved move reaction) :
    e.inbox.filterMap Message.report? ++ e.ending move =
      (e.inputOf move).toList.filterMap Input.report? ++
        reaction.1.inbox.filterMap Message.report? := by
  have hclosed (outcome : CloseOutcome) : (e.endClose outcome).1.inbox = e.inbox :=
    feed_inbox { e with closeDeadline := none } (.closed outcome)
  cases moved with
  | refused | submitted | detached | elapsed | collapsed | called | completed | fastened
  | vanished =>
    exact List.append_nil _
  | messaged panicking message rest present ready first =>
    rw [feed_inbox, first]
    simp only [inputOf, nextInput, first, ending, Option.map_some, Option.toList_some,
      List.append_nil, List.filterMap_cons, List.filterMap_nil, Message.report?_toInput]
    cases message.report? <;> rfl
  | commanded panicking command rest present ready silent first =>
    rw [feed_inbox]
    simp [inputOf, nextInput, silent, first, ending, Input.report?]
  | deserted panicking present ready silent unasked unattached =>
    rw [feed_inbox]
    simp [inputOf, nextInput, silent, unasked, unattached, ending, Input.report?]
  | wrote result =>
    rw [feed_inbox]
    simp [inputOf, ending, Input.report?]
  | closed result =>
    rw [hclosed]
    cases result <;> simp [inputOf, ending, Input.report?]
  | expired =>
    rw [hclosed]
    simp [inputOf, ending, Input.report?]
  | answered number result attempt waits | timedOut number attempt waits =>
    have halone := h.alone waits.mem
    rw [halone.endAttempt_eq waits.toCalls]
    simp [ending, inputOf, halone.verdict_eq waits.number_eq, Message.report?]
  | reported number result attempt calls =>
    have halone := h.alone calls.mem
    rw [halone.endAttempt_eq calls]
    simp [ending, inputOf, halone.verdict_eq calls.number_eq, Message.report?]
  | passed link event task =>
    cases present : e.present <;>
      simp [Ensemble.passOn, LinkReader.pass, present, ending, inputOf, Message.report?]

/-- What was reported, and what waits to be, is how the attempts ended. -/
theorem endings_eq (hrun : (ofSettings settings).run moves = some (last, effects))
    (unpinned : ∀ move ∈ moves, move.pins = false) :
    (ofSettings settings).endings moves =
      (ofSettings settings).reported moves ++ last.inbox.filterMap Message.report? := by
  refine orderly_induction (motive := fun moves last => (ofSettings settings).endings moves =
    (ofSettings settings).reported moves ++ last.inbox.filterMap Message.report?) rfl ?_ hrun
    unpinned
  intro moves mid first move next later c hmoves _ _ horderly ih hmove
  calc (ofSettings settings).endings (moves ++ [move])
      = (ofSettings settings).endings moves ++ mid.ending move := along_concat _ hmoves move
    _ = (ofSettings settings).reported moves ++
          (mid.inbox.filterMap Message.report? ++ mid.ending move) := by
        rw [ih, List.append_assoc]
    _ = (ofSettings settings).reported (moves ++ [move]) ++
          next.inbox.filterMap Message.report? := by
        rw [horderly.report_eq (moved hmove), reported, reported, fed_concat hmoves,
          List.filterMap_append, List.append_assoc]

/-! ## What a move means for the attempt in flight -/

/-- What a move means for the attempt in flight. -/
inductive Fate (e : Ensemble) (c : Custody) (move : Move) (next : Ensemble) : Prop
  /-- it goes on as before, or is given up -/
  | aside (hcompletion : e.completion move = []) (hending : e.ending move = [])
  /-- it is answered, and reports that at once -/
  | answered (attempt : Attempt) (result : Except Failure LinkId) (alone : e.Alone c attempt)
      (waits : attempt.outcome = none)
      (hcompletion : e.completion move = [(attempt.generation, result)])
      (hending : e.ending move = [(attempt.generation, result)]) (left : next.attempts = [])
  /-- it is answered, and has yet to see that -/
  | completed (attempt : Attempt) (result : Except Failure LinkId) (alone : e.Alone c attempt)
      (waits : attempt.outcome = none)
      (hcompletion : e.completion move = [(attempt.generation, result)])
      (hending : e.ending move = [])
      (goesOn : next.attempts = [{ attempt with outcome := some result }])
  /-- it reports what it has been answered -/
  | reported (attempt : Attempt) (result : Except Failure LinkId) (alone : e.Alone c attempt)
      (done : attempt.outcome = some result) (hcompletion : e.completion move = [])
      (hending : e.ending move = [(attempt.generation, result)]) (left : next.attempts = [])
  /-- it has taken too long -/
  | expired (number : Nat) (attempt : Attempt) (hmove : move = .expireOpen number)
      (alone : e.Alone c attempt) (called : attempt.number = some number)
      (waits : attempt.outcome = none) (late : e.reached attempt.deadline = true)
      (hcompletion : e.completion move = [])
      (hending : e.ending move = [(attempt.generation, .error .connectTimeout)])
      (left : next.attempts = [])

theorem Orderly.fate (h : Orderly e c) {reaction : Ensemble × List Effect}
    (moved : e.Moved move reaction) : e.Fate c move reaction.1 := by
  cases moved with
  | answered number result attempt waits =>
    have halone := h.alone waits.mem
    have hverdict := halone.verdict_eq waits.number_eq result
    exact .answered attempt result halone waits.outcome_eq hverdict hverdict
      (by rw [halone.endAttempt_eq waits.toCalls])
  | completed number result attempt waits =>
    have halone := h.alone waits.mem
    have hawaits := attempt.awaits_iff.mpr ⟨waits.number_eq, waits.outcome_eq⟩
    exact .completed attempt result halone waits.outcome_eq
      (halone.verdict_eq waits.number_eq result) rfl
      (by simp [halone.attempts_eq, Attempt.complete, hawaits])
  | reported number result attempt calls done =>
    have halone := h.alone calls.mem
    exact .reported attempt result halone done rfl (halone.verdict_eq calls.number_eq result)
      (by rw [halone.endAttempt_eq calls])
  | timedOut number attempt waits late =>
    have halone := h.alone waits.mem
    exact .expired number attempt rfl halone waits.number_eq waits.outcome_eq late rfl
      (halone.verdict_eq waits.number_eq _) (by rw [halone.endAttempt_eq waits.toCalls])
  | _ => exact .aside rfl rfl

/-! ## Attempts end once -/

/-- Attempts have ended one after the other, each once, and those in flight come after them. -/
structure EndInTurn (ended : List Nat) (e : Ensemble) : Prop where
  pairwise : ended.Pairwise (· < ·)
  le_generation : ∀ generation ∈ ended, generation ≤ e.manager.generation
  lt_attempt : ∀ generation ∈ ended, ∀ attempt ∈ e.attempts, generation < attempt.generation

/-- Whatever the attempts in flight do, they come after those that have ended. -/
theorem EndInTurn.kept {ended : List Nat} (h : EndInTurn ended e) (hsound : e.manager.Sound)
    {reaction : Ensemble × List Effect} (hmoved : e.Moved move reaction) :
    EndInTurn ended reaction.1 := by
  have hle := hmoved.generation_le hsound
  refine ⟨h.pairwise, fun generation hmem => Nat.le_trans (h.le_generation generation hmem) hle,
    fun generation hmem attempt hattempt => ?_⟩
  obtain ⟨earlier, hearlier, hsame⟩ | ⟨hnew, -⟩ := hmoved.of_mem_attempts hsound hattempt
  · have hgeneration : attempt.generation = earlier.generation := by
      obtain rfl | evolves := hsame
      · rfl
      · exact evolves.generation_eq
    exact hgeneration ▸ h.lt_attempt generation hmem earlier hearlier
  · exact Nat.lt_of_le_of_lt (h.le_generation generation hmem) hnew

/-- The attempt in flight is the last one to end. -/
theorem EndInTurn.concat {ended : List Nat} (h : EndInTurn ended e) (halone : e.Alone c attempt)
    (hkept : EndInTurn ended next) (hle : e.manager.generation ≤ next.manager.generation)
    (left : next.attempts = []) : EndInTurn (ended ++ [attempt.generation]) next := by
  refine ⟨?_, fun generation hmem => ?_, by simp [left]⟩
  · refine List.pairwise_append.mpr ⟨h.pairwise, List.pairwise_singleton _ _, ?_⟩
    intro generation hmem last hlast
    obtain rfl := List.mem_singleton.mp hlast
    exact h.lt_attempt generation hmem attempt (by simp [halone.attempts_eq])
  · obtain hearlier | hnow := List.mem_append.mp hmem
    · exact hkept.le_generation generation hearlier
    · rw [List.mem_singleton.mp hnow, ← halone.generation_eq]
      exact hle

theorem EndInTurn.after_move {ended : List Nat} (h : EndInTurn ended e) (horderly : Orderly e c)
    {reaction : Ensemble × List Effect} (hmoved : e.Moved move reaction) :
    EndInTurn (ended ++ (e.ending move).map Prod.fst) reaction.1 := by
  have hkept := h.kept horderly.sound hmoved
  have hle := hmoved.generation_le horderly.sound
  cases horderly.fate hmoved with
  | aside _ hending | completed _ _ _ _ _ hending => simpa [hending] using hkept
  | answered attempt result alone _ _ hending left
      | reported attempt result alone _ _ hending left
      | expired _ attempt _ alone _ _ _ _ hending left =>
    rw [hending]
    exact h.concat alone hkept hle left

/-- The attempts of a run end in order. -/
theorem endInTurn_of_run (hrun : (ofSettings settings).run moves = some (last, effects))
    (unpinned : ∀ move ∈ moves, move.pins = false) :
    EndInTurn (((ofSettings settings).endings moves).map Prod.fst) last := by
  refine orderly_induction (motive := fun moves last =>
    EndInTurn (((ofSettings settings).endings moves).map Prod.fst) last)
    ⟨.nil, by simp [endings, along], by simp [endings, along]⟩ ?_ hrun unpinned
  intro moves mid first move next later c hmoves _ _ horderly ih hmove
  have hendings : (ofSettings settings).endings (moves ++ [move]) =
      (ofSettings settings).endings moves ++ mid.ending move := along_concat _ hmoves move
  rw [hendings, List.map_append]
  exact ih.after_move horderly (moved hmove)

/-! ## What was answered is reported -/

/-- An attempt that was answered ends with the answer, or is given up. -/
structure Heeds (answered ended : List (Nat × Except Failure LinkId)) (e : Ensemble) : Prop where
  le_generation : ∀ pair ∈ answered, pair.1 ≤ e.manager.generation
  outcome_eq : ∀ pair ∈ answered, ∀ attempt ∈ e.attempts, attempt.generation = pair.1 →
    attempt.outcome = some pair.2
  ended_eq : ∀ pair ∈ answered, ∀ other, (pair.1, other) ∈ ended → other = pair.2

variable {answered ended : List (Nat × Except Failure LinkId)}

/-- What was answered stays with the attempt. -/
theorem Heeds.kept (h : Heeds answered ended e) (hsound : e.manager.Sound)
    {reaction : Ensemble × List Effect} (hmoved : e.Moved move reaction) :
    Heeds answered ended reaction.1 := by
  have hle := hmoved.generation_le hsound
  refine ⟨fun pair hmem => Nat.le_trans (h.le_generation pair hmem) hle,
    fun pair hmem attempt hattempt hgeneration => ?_, h.ended_eq⟩
  obtain ⟨earlier, hearlier, rfl | evolves⟩ | ⟨hnew, -⟩ :=
    hmoved.of_mem_attempts hsound hattempt
  · exact h.outcome_eq pair hmem attempt hearlier hgeneration
  · have hover := h.outcome_eq pair hmem earlier hearlier
      (evolves.generation_eq.symm.trans hgeneration)
    -- a call is over once
    cases evolves with
    | called => exact hover
    | completed number result => simp [Attempt.complete, Attempt.awaits, hover]
  · have hbefore := h.le_generation pair hmem
    omega

/-- An attempt ends with what it was answered, if it was. -/
theorem Heeds.concat (h : Heeds answered ended e) {generation : Nat}
    (agrees : ∀ other, (generation, other) ∈ answered → other = result) :
    Heeds answered (ended ++ [(generation, result)]) e := by
  refine ⟨h.le_generation, h.outcome_eq, fun pair hmem other hother => ?_⟩
  obtain hearlier | hnow := List.mem_append.mp hother
  · exact h.ended_eq pair hmem other hearlier
  · obtain ⟨hgeneration, rfl⟩ := Prod.mk.inj (List.mem_singleton.mp hnow)
    exact (agrees pair.2 (hgeneration ▸ hmem)).symm

/-- An attempt that waits for an answer has got none, and has not ended. -/
theorem Heeds.unanswered (h : Heeds answered ended e) (halone : e.Alone c attempt)
    (waits : attempt.outcome = none) (other : Except Failure LinkId) :
    (attempt.generation, other) ∉ answered := by
  intro hmem
  have hover := h.outcome_eq _ hmem attempt (by simp [halone.attempts_eq]) rfl
  exact absurd (waits.symm.trans hover) (by simp)

theorem Heeds.after_move (h : Heeds answered ended e) (horderly : Orderly e c)
    (hturn : EndInTurn (ended.map Prod.fst) e) {reaction : Ensemble × List Effect}
    (hmoved : e.Moved move reaction) :
    Heeds (answered ++ e.completion move) (ended ++ e.ending move) reaction.1 := by
  have hkept := h.kept horderly.sound hmoved
  have hle := hmoved.generation_le horderly.sound
  have unended {attempt : Attempt} (alone : e.Alone c attempt) (other : Except Failure LinkId) :
      (attempt.generation, other) ∉ ended := fun hmem =>
    absurd (hturn.lt_attempt attempt.generation (List.mem_map_of_mem hmem) attempt
      (by simp [alone.attempts_eq])) (Nat.lt_irrefl _)
  -- the answer that has just come is the first one of its attempt
  have answers {attempt : Attempt} {result : Except Failure LinkId} (alone : e.Alone c attempt)
      (houtcome : ∀ other ∈ reaction.1.attempts, other.outcome = some result) :
      Heeds (answered ++ [(attempt.generation, result)]) ended reaction.1 := by
    refine ⟨fun pair hmem => ?_, fun pair hmem other hother hgeneration => ?_,
      fun pair hmem other hother => ?_⟩ <;>
      obtain hearlier | hnow := List.mem_append.mp hmem
    · exact hkept.le_generation pair hearlier
    · rw [List.mem_singleton.mp hnow, ← alone.generation_eq]
      exact hle
    · exact hkept.outcome_eq pair hearlier other hother hgeneration
    · rw [List.mem_singleton.mp hnow]
      exact houtcome other hother
    · exact hkept.ended_eq pair hearlier other hother
    · rw [List.mem_singleton.mp hnow] at hother
      exact absurd hother (unended alone other)
  cases horderly.fate hmoved with
  | aside hcompletion hending => simpa [hcompletion, hending] using hkept
  | answered attempt result alone waits hcompletion hending left =>
    rw [hcompletion, hending]
    refine (answers alone (by simp [left])).concat fun other hmem => ?_
    obtain hearlier | hnow := List.mem_append.mp hmem
    · exact absurd hearlier (h.unanswered alone waits other)
    · exact (Prod.mk.inj (List.mem_singleton.mp hnow)).2
  | completed attempt result alone waits hcompletion hending goesOn =>
    rw [hcompletion, hending, List.append_nil]
    exact answers alone (by simp [goesOn])
  | reported attempt result alone done hcompletion hending left =>
    rw [hcompletion, hending, List.append_nil]
    refine hkept.concat fun other hmem => ?_
    have hsame := h.outcome_eq _ hmem attempt (by simp [alone.attempts_eq]) rfl
    exact (Option.some.inj (done.symm.trans hsame)).symm
  | expired number attempt _ alone _ waits _ hcompletion hending left =>
    rw [hcompletion, hending, List.append_nil]
    exact hkept.concat fun other hmem => absurd hmem (h.unanswered alone waits other)

theorem heeds_of_run (hrun : (ofSettings settings).run moves = some (last, effects))
    (unpinned : ∀ move ∈ moves, move.pins = false) :
    Heeds (((ofSettings settings).completions moves).map Prod.snd)
      ((ofSettings settings).endings moves) last := by
  refine orderly_induction (motive := fun moves last =>
    Heeds (((ofSettings settings).completions moves).map Prod.snd)
      ((ofSettings settings).endings moves) last)
    ⟨by simp [completions, along], by simp [completions, along], by simp [completions, along]⟩ ?_
    hrun unpinned
  intro moves mid first move next later c hmoves hearlier _ horderly ih hmove
  have hcompletions : (ofSettings settings).completions (moves ++ [move]) =
      (ofSettings settings).completions moves ++ (mid.completion move).map (mid.clock, ·) :=
    along_concat _ hmoves move
  have hendings : (ofSettings settings).endings (moves ++ [move]) =
      (ofSettings settings).endings moves ++ mid.ending move := along_concat _ hmoves move
  have hmade : ((mid.completion move).map (mid.clock, ·)).map Prod.snd = mid.completion move := by
    simp [Function.comp_def]
  rw [hcompletions, hendings, List.map_append, hmade]
  exact ih.after_move horderly (endInTurn_of_run hmoves hearlier) (moved hmove)

/-- Of an attempt whose call was over while it was in flight, the answer is reported, however much
time has passed before it got to see that. -/
theorem reported_of_completed (hrun : (ofSettings settings).run moves = some (last, effects))
    (unpinned : ∀ move ∈ moves, move.pins = false) {time generation : Nat}
    {result other : Except Failure LinkId}
    (hcompleted : (time, generation, result) ∈ (ofSettings settings).completions moves)
    (hreported : (generation, other) ∈ (ofSettings settings).reported moves) :
    other = result := by
  have hended : (generation, other) ∈ (ofSettings settings).endings moves := by
    rw [endings_eq hrun unpinned]
    exact List.mem_append_left _ hreported
  exact (heeds_of_run hrun unpinned).ended_eq _ (List.mem_map_of_mem hcompleted) other hended

/-! ## What is reported was answered, or is overdue -/

/-- Attempts in flight have called the transport as recorded, and what their calls have come to is
recorded as well. One that has ended was answered, or is overdue. -/
structure Founded (start : Ensemble) (moves : List Move) (e : Ensemble) : Prop where
  called : ∀ attempt ∈ e.attempts, attempt.number ≠ none →
    ∃ time, (time, attempt.generation) ∈ start.openings moves ∧
      attempt.deadline = start.limit.map (time + ·)
  completed : ∀ attempt ∈ e.attempts, ∀ result, attempt.outcome = some result →
    ∃ time, (time, attempt.generation, result) ∈ start.completions moves
  ended : ∀ generation result, (generation, result) ∈ start.endings moves →
    (∃ time, (time, generation, result) ∈ start.completions moves) ∨
      result = .error .connectTimeout ∧ start.Overdue moves generation

theorem mem_along_concat {α : Type} {view : Ensemble → Move → List α}
    (hrun : start.run moves = some (e, effects)) {item : α} :
    item ∈ start.along view (moves ++ [move]) ↔
      item ∈ start.along view moves ∨ item ∈ view e move := by
  rw [along_concat view hrun, List.mem_append]

theorem Founded.after_move (h : Founded start moves e)
    (hrun : start.run moves = some (e, effects)) (horderly : Orderly e c)
    (hlimit : e.limit = start.limit) {reaction : Ensemble × List Effect}
    (hmoved : e.Moved move reaction) : Founded start (moves ++ [move]) reaction.1 := by
  have answers {generation : Nat} {result : Except Failure LinkId}
      (hcompletion : (generation, result) ∈ e.completion move) :
      ∃ time, (time, generation, result) ∈ start.completions (moves ++ [move]) :=
    ⟨e.clock, (mem_along_concat hrun).mpr (.inr (List.mem_map_of_mem hcompletion))⟩
  have answered {generation : Nat} {result : Except Failure LinkId} :
      (∃ time, (time, generation, result) ∈ start.completions moves) →
        ∃ time, (time, generation, result) ∈ start.completions (moves ++ [move]) :=
    fun ⟨time, hmem⟩ => ⟨time, (mem_along_concat hrun).mpr (.inl hmem)⟩
  have calls {time generation : Nat} (hmem : (time, generation) ∈ start.openings moves) :
      (time, generation) ∈ start.openings (moves ++ [move]) :=
    (mem_along_concat hrun).mpr (.inl hmem)
  constructor
  case called =>
    intro attempt hmem hnumber
    obtain ⟨earlier, hearlier, rfl | evolves⟩ | ⟨-, hfresh⟩ :=
      hmoved.of_mem_attempts horderly.sound hmem
    · obtain ⟨time, hcalled, hdeadline⟩ := h.called attempt hearlier hnumber
      exact ⟨time, calls hcalled, hdeadline⟩
    · cases evolves with
      | called pinned hfirst =>
        refine ⟨e.clock, (mem_along_concat hrun).mpr (.inr ?_), by rw [hlimit]⟩
        simp [hfirst]
      | completed number result =>
        rw [earlier.complete_number] at hnumber
        obtain ⟨time, hcalled, hdeadline⟩ := h.called earlier hearlier hnumber
        refine ⟨time, ?_, ?_⟩
        · rw [earlier.complete_generation]
          exact calls hcalled
        · rw [earlier.complete_deadline, hdeadline]
    · rw [hfresh] at hnumber
      exact absurd rfl hnumber
  case completed =>
    intro attempt hmem result hover
    obtain ⟨earlier, hearlier, rfl | evolves⟩ | ⟨-, hfresh⟩ :=
      hmoved.of_mem_attempts horderly.sound hmem
    · exact answered (h.completed attempt hearlier result hover)
    · cases evolves with
      | called => exact answered (h.completed earlier hearlier result hover)
      | completed number other =>
        rw [earlier.complete_generation]
        by_cases hawaits : earlier.awaits number = true
        · obtain rfl : other = result := by simpa [Attempt.complete, hawaits] using hover
          have hverdict := (horderly.alone hearlier).verdict_eq (earlier.awaits_iff.mp hawaits).1
            other
          exact answers (by simp [completion, hverdict])
        · exact answered (h.completed earlier hearlier result (by
            simpa [Attempt.complete, hawaits] using hover))
    · rw [hfresh] at hover
      exact absurd hover (by simp)
  case ended =>
    intro generation result hmem
    obtain hearlier | hnow := (mem_along_concat hrun).mp hmem
    · refine (h.ended generation result hearlier).imp answered ?_
      rintro ⟨rfl, limit, called, time, hbound, hcalled, hexpired, hle⟩
      exact ⟨rfl, limit, called, time, hbound, calls hcalled,
        (mem_along_concat hrun).mpr (.inl hexpired), hle⟩
    · cases horderly.fate hmoved with
      | aside _ hending | completed _ _ _ _ _ hending => simp [hending] at hnow
      | answered attempt other alone waits hcompletion hending =>
        rw [hending] at hnow
        exact .inl (answers (hcompletion ▸ hnow))
      | reported attempt other alone hover hcompletion hending =>
        obtain ⟨rfl, rfl⟩ := Prod.mk.inj (List.mem_singleton.mp (hending ▸ hnow))
        exact .inl (answered (h.completed attempt (by simp [alone.attempts_eq]) _ hover))
      | expired number attempt hmove alone hnumber _ late _ hending =>
        obtain ⟨rfl, rfl⟩ := Prod.mk.inj (List.mem_singleton.mp (hending ▸ hnow))
        obtain ⟨called, hcalled, hdeadline⟩ :=
          h.called attempt (by simp [alone.attempts_eq]) (by simp [hnumber])
        rw [hdeadline] at late
        cases hbound : start.limit with
        | none => simp [hbound, reached] at late
        | some limit =>
          refine .inr ⟨rfl, limit, called, e.clock, hbound, calls hcalled,
            (mem_along_concat hrun).mpr (.inr ?_), by simpa [hbound, reached] using late⟩
          simp [hmove, alone.attempts_eq, hnumber]

/-- What is reported of an attempt is what it was answered, unless it is overdue. -/
theorem founded_of_run (hrun : (ofSettings settings).run moves = some (last, effects))
    (unpinned : ∀ move ∈ moves, move.pins = false) : Founded (ofSettings settings) moves last := by
  refine orderly_induction (motive := Founded (ofSettings settings))
    ⟨by simp [ofSettings], by simp [ofSettings], by simp [endings, along]⟩ ?_ hrun unpinned
  intro moves mid first move next later c hmoves _ _ horderly ih hmove
  exact ih.after_move hmoves horderly (limit_of_run hmoves) (moved hmove)

/-- What is announced of a failed attempt was reported. -/
theorem reported_of_announced (hrun : (ofSettings settings).run moves = some (last, effects))
    {time generation : Nat} {trigger : Trigger} {reason : String}
    (hmem : (time, .emit (.connectFailed generation trigger reason)) ∈
      (ofSettings settings).timeline moves) :
    ∃ error, (generation, .error error) ∈ (ofSettings settings).reported moves ∧
      reason = error.message := by
  revert hmem
  refine run_induction (motive := fun moves _ =>
    (time, .emit (.connectFailed generation trigger reason)) ∈
        (ofSettings settings).timeline moves →
      ∃ error, (generation, .error error) ∈ (ofSettings settings).reported moves ∧
        reason = error.message) (by simp [timeline, along]) ?_ hrun
  intro moves mid first move next later hmoves ih hmove hmem
  rw [timeline_concat hmoves hmove, List.mem_append] at hmem
  rw [reported, fed_concat hmoves, List.filterMap_append]
  obtain hearlier | hnow := hmem
  · obtain ⟨error, hreported, hreason⟩ := ih hearlier
    exact ⟨error, List.mem_append_left _ hreported, hreason⟩
  · obtain ⟨effect, heffect, hsame⟩ := List.mem_map.mp hnow
    obtain rfl := (Prod.mk.inj hsame).2
    obtain ⟨before, input, hinput, takes, hfed⟩ | ⟨-, elsewhere⟩ :=
      (moved hmove).takes_or_elsewhere
    · have hstep : .emit (.connectFailed generation trigger reason) ∈
          (mid.manager.step input).2 := by
        rw [← takes.manager_eq, ← feed_snd, ← hfed]
        exact heffect
      obtain ⟨error, rfl, hreason⟩ :=
        ((sound_of_run hmoves).turn input).of_connectFailed hstep
      exact ⟨error, by simp [hinput, Input.report?], hreason⟩
    · obtain ⟨record, hlog⟩ | ⟨call, result, hanswer⟩ := elsewhere.quiet _ heffect
      · exact absurd hlog (by simp)
      · exact absurd hanswer (by simp)

/-- After every run that pins no task, what is reported of attempts is what they were answered, or
they are overdue. -/
theorem reportsAnswers_of_run (hrun : (ofSettings settings).run moves = some (last, effects))
    (unpinned : ∀ move ∈ moves, move.pins = false) :
    (ofSettings settings).ReportsAnswers moves where
  reported := fun _ _ _ hcompleted _ hreported =>
    reported_of_completed hrun unpinned hcompleted hreported
  announced := by
    intro time generation result hcompleted now trigger reason hmem
    obtain ⟨error, hreported, hreason⟩ := reported_of_announced hrun hmem
    exact ⟨error, (reported_of_completed hrun unpinned hcompleted hreported).symm, hreason⟩
  overdue := by
    intro generation result hreported
    refine (founded_of_run hrun unpinned).ended generation result ?_
    rw [endings_eq hrun unpinned]
    exact List.mem_append_left _ hreported

end Ensemble

end PersistentLink
