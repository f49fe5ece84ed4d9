import PersistentLink.Proofs.Manager.Generation

/-!
# Handling an input to its end

Most inputs are handled in one step. Some leave a write or a close under way, and are not handled
until its outcome has come in; after that more writes may follow, or a close. What an input leads
to is a matter of the whole handling, not of its first step.

## Main definitions

- `Manager.Busy`: something is under way
- `Manager.Handling`: an input together with the outcomes it waits for

## Main results

- `Manager.run_of_closing`, `Manager.run_of_writing`, `Manager.run_of_draining`: what is done from
  a moment within a handling to its end
- `Manager.exists_handling_of_answer`: an answer is given at the end of a handling
-/

namespace PersistentLink.Manager

open Effect

/-- A write or a close is under way. -/
def Busy (m : Manager) : Prop :=
  m.activity ≠ .ready ∧ m.activity ≠ .ended

/-- Something is under way when each of the inputs comes in. -/
def Lasts (m : Manager) : List Input → Prop
  | [] => True
  | input :: rest => m.Busy ∧ (m.step input).1.Lasts rest

/-- An input that is handled, and all that comes in until nothing is under way again. -/
structure Handling (m : Manager) (input : Input) (outcomes : List Input) : Prop where
  ready : m.activity = .ready
  lasts : (m.step input).1.Lasts outcomes
  finished : ¬(m.run (input :: outcomes)).1.Busy

variable {m : Manager}

/-! ## The course of a handling -/

theorem lasts_concat {inputs : List Input} {input : Input} :
    m.Lasts (inputs ++ [input]) ↔ m.Lasts inputs ∧ (m.run inputs).1.Busy := by
  induction inputs generalizing m with
  | nil => simp [Lasts]
  | cons first rest ih => simp [Lasts, ih, run_cons, and_assoc]

theorem eq_nil_of_lasts {inputs : List Input} (h : m.Lasts inputs) (finished : ¬m.Busy) :
    inputs = [] := by
  cases inputs with
  | nil => rfl
  | cons input rest => exact absurd h.1 finished

theorem not_busy_resume (rest : Resume) : ¬(m.resume rest).1.Busy := by
  cases rest <;> simp [Busy, resume, settleLost, settleClosed, settleReset, beginAttempt]

/-- Once its writer has been closed, what was left to do is done. -/
theorem run_of_closing {generation : Nat} {rest : Resume}
    (busy : m.activity = .closing generation rest) {outcomes : List Input}
    (hlasts : m.Lasts outcomes) (finished : ¬(m.run outcomes).1.Busy) :
    ∃ record, m.run outcomes = (m.resume rest).after [.log record] := by
  induction outcomes with
  | nil => exact absurd (by simp [Busy, busy]) finished
  | cons input later ih =>
    by_cases stray : m.fits input = false
    · have hstep := step_of_stray stray
      rw [run_cons, hstep] at finished ⊢
      rw [Lasts, hstep] at hlasts
      exact ih hlasts.2 finished
    · cases input with
      | closed outcome =>
        have hstep : m.step (.closed outcome) =
            (m.resume rest).after [.log (closeRecord generation outcome)] := by
          simp only [step, busy]
        have hlater : later = [] := by
          rw [Lasts, hstep] at hlasts
          exact eq_nil_of_lasts hlasts.2 (not_busy_resume rest)
        subst hlater
        exact ⟨_, by rw [run_singleton, hstep]⟩
      | _ => simp [fits, busy] at stray

/-- A single payload that is written or lost answers nobody and announces no link. -/
theorem run_of_writing (hsound : m.Sound) {payload : Payload}
    (busy : m.activity = .writing payload) {outcomes : List Input} (hlasts : m.Lasts outcomes)
    (finished : ¬(m.run outcomes).1.Busy) :
    answers (m.run outcomes).2 = [] ∧
      ∀ generation flushed, .opened generation flushed ∉ events (m.run outcomes).2 := by
  induction outcomes with
  | nil => exact absurd (by simp [Busy, busy]) finished
  | cons input later ih =>
    have hturn := hsound.turn input
    rw [run_cons] at finished ⊢
    rw [Lasts] at hlasts
    generalize m.step input = reaction at hturn finished hlasts
    cases hturn with
    | wrote =>
      obtain rfl := eq_nil_of_lasts hlasts.2 (by simp [Busy])
      simp
    | writeLost _ error link _ held =>
      obtain ⟨record, hrun⟩ := run_of_closing rfl hlasts.2 finished
      simp [hrun, answer?, event?, answers_resume, events_resume]
    | ignored => simpa using ih hlasts.2 finished
    | _ => simp_all

/-- How the writing of a queue to a new link ends: it is written and the link announced, and all
who wait are told so; or a write fails, and they are told that the link was lost. -/
structure DrainEnds (m : Manager) (outcomes : List Input) (reaction : Reaction) : Prop where
  written : (∀ error, .written (.error error) ∉ outcomes) →
    (∃ flushed, events reaction.2 = [.opened m.generation flushed]) ∧
      answers reaction.2 = m.waiters.map fun waiter => (waiter.call, .ok ())
  lost : (∃ error, .written (.error error) ∈ outcomes) →
    (∃ reason, events reaction.2 = [.closed m.generation (.abnormal reason)]) ∧
      (answers reaction.2 =
        m.waiters.map fun waiter => (waiter.call, .error .connectionClosed)) ∧
      reaction.1.Decided m.generation

theorem run_of_draining (hsound : m.Sound) {payload : Payload} {flushed : Nat}
    (busy : m.activity = .draining payload flushed) {outcomes : List Input}
    (hlasts : m.Lasts outcomes) (finished : ¬(m.run outcomes).1.Busy) :
    m.DrainEnds outcomes (m.run outcomes) := by
  induction outcomes generalizing m payload flushed with
  | nil => exact absurd (by simp [Busy, busy]) finished
  | cons input later ih =>
    have hturn := hsound.turn input
    have hnext := hsound.step input
    rw [run_cons] at finished ⊢
    rw [Lasts] at hlasts
    generalize m.step input = reaction at hturn hnext finished hlasts
    cases hturn with
    | drained =>
      obtain rfl := eq_nil_of_lasts hlasts.2 (by simp [Busy])
      constructor
      · simp [event?, answer?]
      · simp
    | drainedOne =>
      obtain ⟨hwritten, hlost⟩ := ih hnext rfl hlasts.2 finished
      constructor
      · simpa [event?, answer?] using hwritten
      · simpa [event?, answer?] using hlost
    | drainLost _ _ error =>
      -- the writer is closed next, and only then is everybody told
      obtain ⟨record, hrun⟩ := run_of_closing rfl hlasts.2 finished
      constructor
      · intro hnone
        exact absurd List.mem_cons_self (hnone error)
      · simp [hrun, answer?, event?, resume, settleLost, Decided, Undecided]
    | ignored _ stray =>
      obtain ⟨hwritten, hlost⟩ := ih hsound busy hlasts.2 finished
      have hunwritten : ∀ error, .written (.error error) ≠ input := by
        rintro error rfl
        simp [fits, busy] at stray
      constructor
      · simpa [hunwritten] using hwritten
      · simpa [hunwritten] using hlost
    | _ => simp_all

/-! ## The handlings of a run -/

/-- Every input of a run, until the manager ends, comes in at the start of a handling or in the
course of one. -/
theorem exists_start (ready : m.activity = .ready) (inputs : List Input) (input : Input)
    (going : (m.run inputs).1.activity ≠ .ended) :
    ∃ past begun first outcomes, inputs = past ++ begun ∧ begun ++ [input] = first :: outcomes ∧
      (m.run past).1.activity = .ready ∧ ((m.run past).1.step first).1.Lasts outcomes := by
  induction inputs using List.reverseRecOn generalizing input with
  | nil => exact ⟨[], [], input, [], rfl, rfl, ready, trivial⟩
  | append_singleton inputs last ih =>
    by_cases hready : (m.run (inputs ++ [last])).1.activity = .ready
    · exact ⟨inputs ++ [last], [], input, [], by simp, rfl, hready, trivial⟩
    · have hearlier : (m.run inputs).1.activity ≠ .ended := by
        intro ended
        rw [run_concat_fst, step_of_stray (by simp [fits, ended])] at going
        exact going ended
      -- the last input has left something under way, so its handling goes on
      obtain ⟨past, begun, first, outcomes, rfl, hbegun, hstart, hlasts⟩ := ih last hearlier
      refine ⟨past, begun ++ [last], first, outcomes ++ [input], by simp, by simp [hbegun],
        hstart, ?_⟩
      rw [List.append_assoc, hbegun, run_append, Reaction.after_fst, run_cons,
        Reaction.after_fst] at hready going
      exact lasts_concat.mpr ⟨hlasts, hready, going⟩

/-- A call is answered as the last thing of a handling. -/
theorem Turn.not_busy_of_answer {input : Input} {reaction : Reaction}
    (turn : Turn m input reaction) {call : CallId} {result : Except Failure Unit}
    (h : .answer call result ∈ reaction.2) : ¬reaction.1.Busy := by
  rw [← mem_answers] at h
  cases turn with
  | welcomed _ ready | opened _ ready | failed _ ready => simp [Busy, ready]
  | failedRetrying | drained => simp [Busy, beginAttempt]
  | dismissed | released => exact not_busy_resume _
  | _ => simp [answer?] at h

/-- In a run a call is answered by a handling. -/
theorem exists_handling_of_answer (ready : m.activity = .ready) (hsound : m.Sound)
    {inputs : List Input} {call : CallId} {result : Except Failure Unit}
    (h : .answer call result ∈ (m.run inputs).2) :
    ∃ past input outcomes later, inputs = past ++ input :: (outcomes ++ later) ∧
      (m.run past).1.Handling input outcomes ∧
      .answer call result ∈ ((m.run past).1.run (input :: outcomes)).2 := by
  induction inputs using List.reverseRecOn with
  | nil => simp at h
  | append_singleton inputs input ih =>
    rw [run_concat_snd, List.mem_append] at h
    obtain hearlier | hlast := h
    · obtain ⟨past, first, outcomes, later, rfl, hhandling, hanswer⟩ := ih hearlier
      exact ⟨past, first, outcomes, later ++ [input], by simp, hhandling, hanswer⟩
    · have hover := ((hsound.run inputs).turn input).not_busy_of_answer hlast
      have going : (m.run inputs).1.activity ≠ .ended := by
        intro ended
        rw [step_of_stray (by simp [fits, ended])] at hlast
        simp at hlast
      obtain ⟨past, begun, first, outcomes, rfl, hbegun, hstart, hlasts⟩ :=
        exists_start ready inputs input going
      rw [run_append, Reaction.after_fst] at hover hlast
      refine ⟨past, first, outcomes, [], by simp [hbegun], ⟨hstart, hlasts, ?_⟩, ?_⟩
      · rwa [← hbegun, run_concat_fst]
      · rw [← hbegun, run_concat_snd]
        exact List.mem_append_right _ hlast

end PersistentLink.Manager
