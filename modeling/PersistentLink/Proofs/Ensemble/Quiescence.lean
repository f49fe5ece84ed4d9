import PersistentLink.Proofs.Ensemble.Timeline

/-!
# When nothing can proceed

The parties go on of their own accord as long as the manager has something to handle, an attempt has
yet to call the transport or to report the answer, or a limit has been reached. Then they wait for
somebody outside, or for time to pass.

A close of a writer has a limit, and so may have an attempt; a write has none. So a call for a
release that the manager cannot answer is either held up by a close, which ends in time, or by a
write, and then nothing but the end of the write helps.

## Main definitions

- `Ensemble.Quiescent`: no party can proceed
- `Ensemble.closers`: calls for a release that are not answered
- `Ensemble.timers`: the limits that count

## Main results

- `Ensemble.Quiescent.handled`, `Ensemble.Quiescent.called`, `Ensemble.Quiescent.unanswered`,
  `Ensemble.Quiescent.not_reached`: what that nobody can proceed says of each party
- `Ensemble.run_of_isWriting`: during a write the manager answers nobody
- `Ensemble.closers_held_up`: what an unanswered call for a release waits for
- `Ensemble.closers_untimed`: it may wait without any limit
-/

namespace PersistentLink

namespace Move

/-- The parties make a move by themselves: nothing comes from outside, and no time passes. -/
def isInternal : Move → Bool
  | handle _ | callOpen _ | closeExpired | reportOpen .. | expireOpen _ => true
  | _ => false

/-- The call to a writer that writes is over. -/
def endsWrite : Move → Bool
  | written _ | collapse => true
  | _ => false

end Move

/-- The call that asks for a release. -/
def Command.closer? : Command → Option CallId
  | close call => some call
  | _ => none

namespace Ensemble

open Manager

/-- No party can proceed by itself. -/
def Quiescent (e : Ensemble) : Prop :=
  ∀ move : Move, move.isInternal = true → e.move move = none

/-- Nothing is left to handle, all attempts wait for the transport, and no limit is reached. -/
def isStill (e : Ensemble) : Bool :=
  (!(e.present && e.manager.activity == .ready) ||
    (e.inbox.isEmpty && e.commands.isEmpty && e.attached)) &&
  !(e.isClosing && e.reached e.closeDeadline) &&
  e.attempts.all fun attempt =>
    attempt.number.isSome && attempt.outcome.isNone && !e.reached attempt.deadline

/-- The calls for a release that a manager has not answered: the one that it serves, and those that
wait. -/
def closers (e : Ensemble) : List CallId :=
  if e.present then
    (match e.manager.activity with
      | .closing _ (.reset call) => [call]
      | _ => []) ++ e.commands.filterMap Command.closer?
  else []

/-- The times at which a limit is reached. -/
def timers (e : Ensemble) : List Nat :=
  (if e.isClosing then e.closeDeadline.toList else []) ++ e.attempts.filterMap (·.deadline)

variable {e last : Ensemble} {move : Move} {moves : List Move} {effects : List Effect}

/-! ## What each party waits for -/

/-- A manager that has nothing under way has handled all that there is. -/
theorem Quiescent.handled (quiet : e.Quiescent) (present : e.present = true)
    (ready : e.manager.activity = .ready) : e.inbox = [] ∧ e.commands = [] ∧ e.attached = true := by
  have hnone : e.nextInput [] = none := by
    have hmove := quiet (.handle []) rfl
    simpa [Ensemble.move, present, ready] using hmove
  unfold nextInput at hnone
  split at hnone
  · simp at hnone
  · simp at hnone
  · rename_i hinbox hcommands
    exact ⟨hinbox, hcommands, by simpa using hnone⟩

theorem Quiescent.called (quiet : e.Quiescent) {attempt : Attempt} (hmem : attempt ∈ e.attempts) :
    ∃ number, attempt.number = some number := by
  have hnone : callFirst e.opens (e.limit.map (e.clock + ·)) false e.attempts = none := by
    have hmove := quiet (.callOpen false) rfl
    simpa [Ensemble.move] using hmove
  generalize e.attempts = attempts at hmem hnone
  induction attempts with
  | nil => simp at hmem
  | cons first rest ih =>
    rw [callFirst] at hnone
    split at hnone
    · simp at hnone
    · rename_i hcalled
      obtain rfl | hlater := List.mem_cons.mp hmem
      · exact Option.ne_none_iff_exists'.mp (by simpa using hcalled)
      · exact ih hlater (by simpa using hnone)

theorem Quiescent.close_not_reached (quiet : e.Quiescent) (closing : e.isClosing = true) :
    e.reached e.closeDeadline = false := by
  have hmove := quiet .closeExpired rfl
  simpa [Ensemble.move, closing] using hmove

/-- The only attempt in flight has no answer to report. -/
theorem Quiescent.unanswered (quiet : e.Quiescent) {attempt : Attempt}
    (hattempts : e.attempts = [attempt]) : attempt.outcome = none := by
  have hmem : attempt ∈ e.attempts := by simp [hattempts]
  obtain ⟨number, hnumber⟩ := quiet.called hmem
  rw [Option.eq_none_iff_forall_ne_some]
  intro result
  have hmove := quiet (.reportOpen number result) rfl
  simpa [Ensemble.move, takeAttempt, hattempts, hnumber] using hmove

/-- The limit of the only attempt in flight is not reached. -/
theorem Quiescent.not_reached (quiet : e.Quiescent) {attempt : Attempt}
    (hattempts : e.attempts = [attempt]) : e.reached attempt.deadline = false := by
  have hmem : attempt ∈ e.attempts := by simp [hattempts]
  obtain ⟨number, hnumber⟩ := quiet.called hmem
  have hmove := quiet (.expireOpen number) rfl
  simpa [Ensemble.move, takeAttempt, hattempts, hnumber, quiet.unanswered hattempts] using hmove

theorem lt_of_not_reached {deadline : Nat} (h : e.reached (some deadline) = false) :
    e.clock < deadline := by
  simp only [reached, Option.any_some, decide_eq_false_iff_not, Nat.not_le] at h
  exact Nat.lt_of_lt_of_le h (Nat.min_le_left _ _)

theorem quiescent_of_isStill (h : e.isStill = true) : e.Quiescent := by
  simp only [isStill, Bool.and_eq_true, Bool.or_eq_true, List.all_eq_true] at h
  obtain ⟨⟨hmanager, hclosing⟩, hattempts⟩ := h
  intro move hinternal
  rw [Option.eq_none_iff_forall_ne_some]
  intro reaction hmove
  cases moved hmove with
  | messaged _ message rest present ready first => simp [present, ready, first] at hmanager
  | commanded _ command rest present ready silent first => simp [present, ready, first] at hmanager
  | deserted _ present ready silent unasked unattached =>
    simp [present, ready, unattached] at hmanager
  | expired closing late => simp [closing, late] at hclosing
  | called _ before attempt after uncalled _ hsplit =>
    have hcalled := hattempts attempt (by simp [hsplit])
    simp [uncalled] at hcalled
  | reported number result attempt calls done =>
    have hwaits := hattempts attempt calls.mem
    simp [done] at hwaits
  | timedOut number attempt waits late =>
    have hearly := hattempts attempt waits.mem
    simp [late] at hearly
  | _ => simp [Move.isInternal] at hinternal

/-! ## Writes have no limit -/

/-- During a write the manager sees nothing, and answers nobody. -/
theorem Moved.of_isWriting {reaction : Ensemble × List Effect} (moved : e.Moved move reaction)
    (writing : e.isWriting = true) (unended : move.endsWrite = false) :
    reaction.1.manager = e.manager ∧ reaction.1.isWriting = true ∧
      Effect.answers reaction.2 = [] := by
  have hbusy : e.present = true ∧ e.manager.activity ≠ .ready ∧ e.isClosing = false := by
    cases hactivity : e.manager.activity <;> simp_all [isWriting, isClosing]
  obtain ⟨present, busy, hclosing⟩ := hbusy
  cases moved with
  | refused command gone => simp [gone] at present
  | submitted | detached | elapsed | called | completed | vanished | fastened =>
    exact ⟨rfl, writing, rfl⟩
  | messaged _ _ _ _ ready | commanded _ _ _ _ ready | deserted _ _ ready => exact absurd ready busy
  | wrote | collapsed => simp [Move.endsWrite] at unended
  | closed _ closing | expired closing => simp [hclosing] at closing
  | answered number result attempt | reported number result attempt | timedOut number attempt =>
    have hposted : (e.withoutAttempt number).present = true := present
    rw [endAttempt, post, if_pos hposted]
    exact ⟨rfl, writing, rfl⟩
  | passed link event task =>
    refine ⟨rfl, writing, ?_⟩
    simp [passOn, LinkReader.pass, present, Effect.answer?]

/-- However much time passes and whatever else happens, as long as a write goes on, the manager
stays where it is and answers nobody. -/
theorem run_of_isWriting (writing : e.isWriting = true)
    (unended : ∀ move ∈ moves, move.endsWrite = false)
    (hrun : e.run moves = some (last, effects)) :
    last.manager = e.manager ∧ last.isWriting = true ∧ Effect.answers effects = [] := by
  -- a move keeps the write under way, so the rest of the run starts from one as well
  induction moves generalizing e effects with
  | nil =>
    obtain ⟨rfl, rfl⟩ := Prod.mk.inj (Option.some.inj hrun)
    exact ⟨rfl, writing, rfl⟩
  | cons move rest ih =>
    obtain ⟨next, first, later, hmove, hrest, rfl⟩ := exists_of_run_cons hrun
    obtain ⟨hmanager, hwriting, hsilent⟩ :=
      (moved hmove).of_isWriting writing (unended move List.mem_cons_self)
    obtain ⟨hlast, hstill, hlater⟩ := ih hwriting
      (fun other hmem => unended other (List.mem_cons_of_mem _ hmem)) hrest
    exact ⟨hlast.trans hmanager, hstill, by simp [hsilent, hlater]⟩

/-! ## What a release waits for -/

/-- While nobody can proceed, a close under way has been going on for less than the grace. -/
theorem ClosesInTime.lt_of_quiescent {past : List (Nat × Effect)} (closes : ClosesInTime past e)
    (quiet : e.Quiescent) (closing : e.isClosing = true) :
    ∃ since ≤ e.clock, lastTime Effect.isClose past = some since ∧
      e.closeDeadline = some (since + closeGrace) ∧ e.clock < since + closeGrace := by
  have releasing : e.manager.isReleasing = true := by
    cases hactivity : e.manager.activity <;> simp_all [isClosing, isReleasing]
  obtain ⟨since, hsince, hlast, hdeadline⟩ := closes releasing
  have hahead := quiet.close_not_reached closing
  rw [hdeadline] at hahead
  exact ⟨since, hsince, hlast, hdeadline, lt_of_not_reached hahead⟩

/-- A close under way can be given up after some time, which is at most the grace. -/
theorem exists_wait_of_isClosing {past : List (Nat × Effect)} (closes : ClosesInTime past e)
    (quiet : e.Quiescent) (closing : e.isClosing = true) :
    ∃ wait, 0 < wait ∧ wait ≤ closeGrace ∧ e.closeDeadline = some (e.clock + wait) ∧
      (e.run [.elapse wait, .closeExpired]).isSome = true := by
  obtain ⟨since, hsince, -, hdeadline, hlt⟩ := closes.lt_of_quiescent quiet closing
  have hwait : e.clock + (since + closeGrace - e.clock) = since + closeGrace := by omega
  refine ⟨since + closeGrace - e.clock, by omega, by omega, by rw [hdeadline, hwait], ?_⟩
  -- by then the limit is reached, and the manager still waits for the writer
  let after : Ensemble := { e with clock := e.clock + (since + closeGrace - e.clock) }
  have hlate : after.reached after.closeDeadline = true := by
    rw [reached, show after.closeDeadline = some (since + closeGrace) from hdeadline,
      Option.any_some, decide_eq_true_iff]
    exact Nat.le_trans (Nat.min_le_left _ _) (Nat.le_of_eq hwait.symm)
  have hexpires : after.move .closeExpired = some (after.endClose .timedOut) := by
    rw [Ensemble.move, show after.isClosing = true from closing, hlate]
    rfl
  have helapses : e.move (.elapse (since + closeGrace - e.clock)) = some (after, []) := rfl
  simp [run, helapses, hexpires]

/-- A call for a release that is not answered, while nobody can proceed, is held up by a call to a
writer. If a writer is being closed, a limit of that lies ahead, and the manager goes on when it is
reached. If a payload is being written, the manager does not go on and answers nobody, however much
time passes and whatever happens, as long as the write goes on. -/
theorem closers_held_up {settings : Settings}
    (hrun : (ofSettings settings).run moves = some (last, effects)) (quiet : last.Quiescent)
    (unanswered : last.closers ≠ []) :
    (last.isClosing = true ∧ ∃ wait, 0 < wait ∧ wait ≤ closeGrace ∧
      last.closeDeadline = some (last.clock + wait) ∧
      (last.run [.elapse wait, .closeExpired]).isSome = true) ∨
    (last.isWriting = true ∧ ∀ later final done, (∀ move ∈ later, move.endsWrite = false) →
      last.run later = some (final, done) →
        final.manager = last.manager ∧ Effect.answers done = []) := by
  have hsound := sound_of_run hrun
  have present : last.present = true := by
    by_contra gone
    simp [closers, gone] at unanswered
  cases hactivity : last.manager.activity with
  | ready =>
    obtain ⟨-, hcommands, -⟩ := quiet.handled present hactivity
    simp [closers, hactivity, hcommands] at unanswered
  | closing generation rest =>
    have closing : last.isClosing = true := by simp [isClosing, hactivity, present]
    exact .inl ⟨closing, exists_wait_of_isClosing (closesInTime_of_run hrun) quiet closing⟩
  | writing payload | draining payload flushed =>
    have writing : last.isWriting = true := by simp [isWriting, hactivity, present]
    refine .inr ⟨writing, fun later final done unended hlater => ?_⟩
    obtain ⟨hmanager, -, hsilent⟩ := run_of_isWriting writing unended hlater
    exact ⟨hmanager, hsilent⟩
  | ended => exact absurd hactivity (not_ended_of_run hrun present)

/-- A link has opened, and its first payload is being written, when a release is asked for. An hour
later neither the caller who joined nor the one who asked for the release has an answer. -/
theorem closers_held_up_writing :
    let start := ofSettings {}
    let moves : List Move := [.submit (.send (.text "a")), .handle [], .callOpen false,
      .submit (.connect 0), .handle [], .answerOpen 0 (.ok 7), .handle [], .submit (.close 1)]
    let later : List Move := [.elapse 3600000, .read 7 (.message (.text "b")), .submit (.close 2)]
    ∃ last effects final done, start.run moves = some (last, effects) ∧ last.Quiescent ∧
      last.run later = some (final, done) ∧ final.manager = last.manager ∧
      Effect.answers done = [] := by
  intro start moves later
  have hpossible : (start.run moves).map (fun made =>
      (made.1.isStill, made.1.closers, made.1.isClosing, (made.1.run later).isSome)) =
        some (true, [1], false, true) := by decide +kernel
  obtain ⟨⟨last, effects⟩, hrun, hlast⟩ := Option.map_eq_some_iff.mp hpossible
  simp only [Prod.mk.injEq] at hlast
  obtain ⟨hstill, hclosers, hclosing, hlater⟩ := hlast
  have quiet := quiescent_of_isStill hstill
  obtain ⟨⟨final, done⟩, hfinal⟩ := Option.isSome_iff_exists.mp hlater
  obtain ⟨closing, -⟩ | ⟨-, hstuck⟩ := closers_held_up hrun quiet (by simp [hclosers])
  · exact absurd (closing.symm.trans hclosing) (by decide)
  · obtain ⟨hmanager, hsilent⟩ := hstuck later final done (by decide) hfinal
    exact ⟨last, effects, final, done, hrun, quiet, hfinal, hmanager, hsilent⟩

/-- The link has opened, a caller has joined, and the queue is being written when a release is asked
for. Nobody can proceed, though both calls are unanswered, and no limit counts. -/
theorem closers_untimed :
    let start := ofSettings { tuning := { connectLimit := some 10 } }
    let moves : List Move := [.submit (.send (.text "a")), .handle [], .callOpen false,
      .submit (.connect 0), .handle [], .answerOpen 0 (.ok 7), .handle [], .submit (.close 1)]
    ∃ last effects, start.run moves = some (last, effects) ∧ last.Quiescent ∧
      last.closers = [1] ∧ last.manager.waiting = [0] ∧ last.timers = [] := by
  intro start moves
  have hpossible : (start.run moves).map (fun made =>
      (made.1.isStill, made.1.closers, made.1.manager.waiting, made.1.timers)) =
        some (true, [1], [0], []) := by decide +kernel
  obtain ⟨⟨last, effects⟩, hrun, hlast⟩ := Option.map_eq_some_iff.mp hpossible
  simp only [Prod.mk.injEq] at hlast
  obtain ⟨hstill, hclosers, hwaiting, htimers⟩ := hlast
  exact ⟨last, effects, hrun, quiescent_of_isStill hstill, hclosers, hwaiting, htimers⟩

end Ensemble

end PersistentLink
