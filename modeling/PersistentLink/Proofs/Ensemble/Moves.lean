import PersistentLink.Ensemble
import PersistentLink.Proofs.Manager.Run

/-!
# What a move is

A move that is possible is one of a few things: the manager is fed an input, a task posts a message
or ends, or nothing happens that concerns either. Properties of runs of all parties are proved by
cases on `Ensemble.Moved`; the moves themselves are opened only here.

## Main definitions

- `Message.generation`, `Message.ended?`, `Message.link?`: views of messages
- `Ensemble.Calls`, `Ensemble.Waits`: the attempt that made a call, and still waits for the answer
- `Ensemble.Moved`: all that a possible move can be, case by case

## Main results

- `Ensemble.moved`: a possible move is one of the cases
- `Ensemble.exists_of_run_cons`: a run begins with its first move
- `Ensemble.framed_foldl_absorb`, `Ensemble.attempts_foldl_absorb_sublist`,
  `Ensemble.of_mem_readers_foldl_absorb`: what the effects of the manager mean for the tasks
-/

namespace PersistentLink

namespace Message

/-- The generation that a message is tagged with. -/
def generation : Message → Nat
  | attemptFinished generation _ | linkEvent generation _ => generation

/-- The generation of the attempt that a message reports the end of. -/
def ended? : Message → Option Nat
  | attemptFinished generation _ => some generation
  | linkEvent .. => none

/-- The link that comes with a message. -/
def link? : Message → Option LinkId
  | attemptFinished _ (.ok link) => some link
  | _ => none

end Message

namespace Attempt

variable (attempt : Attempt) {number : Nat} (result : Except Failure LinkId)

theorem awaits_iff :
    attempt.awaits number = true ↔ attempt.number = some number ∧ attempt.outcome = none := by
  simp [awaits]

/-- All but the outcome of an attempt stays as it is when its call is over. -/
theorem complete_eq : ∃ outcome, attempt.complete number result = { attempt with outcome } := by
  unfold complete
  split
  · exact ⟨some result, rfl⟩
  · exact ⟨attempt.outcome, rfl⟩

@[simp]
theorem complete_generation :
    (attempt.complete number result).generation = attempt.generation := by
  obtain ⟨outcome, hcomplete⟩ := attempt.complete_eq result
  rw [hcomplete]

@[simp]
theorem complete_number : (attempt.complete number result).number = attempt.number := by
  obtain ⟨outcome, hcomplete⟩ := attempt.complete_eq result
  rw [hcomplete]

@[simp]
theorem complete_deadline : (attempt.complete number result).deadline = attempt.deadline := by
  obtain ⟨outcome, hcomplete⟩ := attempt.complete_eq result
  rw [hcomplete]

@[simp]
theorem complete_pinned : (attempt.complete number result).pinned = attempt.pinned := by
  obtain ⟨outcome, hcomplete⟩ := attempt.complete_eq result
  rw [hcomplete]

end Attempt

namespace Ensemble

/-- The attempts in flight but for the one that made a call. -/
def withoutAttempt (e : Ensemble) (number : Nat) : Ensemble :=
  { e with attempts := e.attempts.filter (·.number != some number) }

/-- An attempt in flight has made a call to the transport. -/
structure Calls (e : Ensemble) (number : Nat) (attempt : Attempt) : Prop where
  mem : attempt ∈ e.attempts
  number_eq : attempt.number = some number

/-- An attempt in flight waits for the answer to a call that it has made. -/
structure Waits (e : Ensemble) (number : Nat) (attempt : Attempt) : Prop
    extends e.Calls number attempt where
  outcome_eq : attempt.outcome = none

/-- What a move is. -/
inductive Moved (e : Ensemble) : Move → Ensemble × List Effect → Prop
  -- a command comes too late
  | refused (command : Command) (gone : e.present = false) :
    Moved e (.submit command) (e, refuse command)
  -- a command is queued
  | submitted (command : Command) (present : e.present = true) (attached : e.attached = true) :
    Moved e (.submit command) ({ e with commands := e.commands ++ [command] }, [])
  -- nobody is left to give commands
  | detached (attached : e.attached = true) : Moved e .detach ({ e with attached := false }, [])
  -- time passes
  | elapsed (span : Nat) : Moved e (.elapse span) ({ e with clock := e.clock + span }, [])
  -- the manager handles a message
  | messaged (panicking : List ObserverId) (message : Message) (rest : List Message)
      (present : e.present = true) (ready : e.manager.activity = .ready)
      (first : e.inbox = message :: rest) :
    Moved e (.handle panicking) ({ e with inbox := rest }.feed (message.toInput panicking))
  -- the manager handles a command
  | commanded (panicking : List ObserverId) (command : Command) (rest : List Command)
      (present : e.present = true) (ready : e.manager.activity = .ready) (silent : e.inbox = [])
      (first : e.commands = command :: rest) :
    Moved e (.handle panicking) ({ e with commands := rest }.feed (.command command))
  -- the manager finds that no command will come any more
  | deserted (panicking : List ObserverId) (present : e.present = true)
      (ready : e.manager.activity = .ready) (silent : e.inbox = []) (unasked : e.commands = [])
      (unattached : e.attached = false) :
    Moved e (.handle panicking) (e.feed .commandsEnded)
  -- a write ends
  | wrote (result : Except Failure Unit) (writing : e.isWriting = true) :
    Moved e (.written result) (e.feed (.written result))
  -- a close ends
  | closed (result : Except Failure Unit) (closing : e.isClosing = true) :
    Moved e (.closed result)
      (e.endClose (match result with
        | .ok _ => .done
        | .error error => .failed error))
  -- a close is given up
  | expired (closing : e.isClosing = true) (late : e.reached e.closeDeadline = true) :
    Moved e .closeExpired (e.endClose .timedOut)
  -- the manager breaks down
  | collapsed (blocked : e.isBlocked = true) :
    Moved e .collapse ({ e with present := false }, [])
  -- an attempt calls the transport
  | called (pinned : Bool) (before : List Attempt) (attempt : Attempt) (after : List Attempt)
      (uncalled : attempt.number = none) (first : ∀ other ∈ before, other.number ≠ none)
      (hattempts : e.attempts = before ++ attempt :: after) :
    Moved e (.callOpen pinned)
      ({ e with
          attempts := before ++
            { attempt with
              number := some e.opens, deadline := e.limit.map (e.clock + ·), pinned } :: after
          opens := e.opens + 1 }, [])
  -- an attempt reports what the transport answers
  | answered (number : Nat) (result : Except Failure LinkId) (attempt : Attempt)
      (waits : e.Waits number attempt) :
    Moved e (.answerOpen number result) ((e.withoutAttempt number).endAttempt attempt result)
  -- the transport has answered an attempt
  | completed (number : Nat) (result : Except Failure LinkId) (attempt : Attempt)
      (waits : e.Waits number attempt) :
    Moved e (.completeOpen number result)
      ({ e with attempts := e.attempts.map (·.complete number result) }, [])
  -- an attempt reports what the transport has answered
  | reported (number : Nat) (result : Except Failure LinkId) (attempt : Attempt)
      (calls : e.Calls number attempt) (done : attempt.outcome = some result) :
    Moved e (.reportOpen number result) ((e.withoutAttempt number).endAttempt attempt result)
  -- an attempt breaks down
  | vanished (number : Nat) (attempt : Attempt) (waits : e.Waits number attempt) :
    Moved e (.collapseOpen number) (e.withoutAttempt number, [])
  -- an attempt reports that its time has passed
  | timedOut (number : Nat) (attempt : Attempt) (waits : e.Waits number attempt)
      (late : e.reached attempt.deadline = true) :
    Moved e (.expireOpen number)
      ((e.withoutAttempt number).endAttempt attempt (.error .connectTimeout))
  -- a reader cannot be interrupted any more
  | fastened (link : LinkId) :
    Moved e (.pinReader link)
      ({ e with
          readers := e.readers.map fun task =>
            if task.link == link then { task with pinned := true } else task }, [])
  -- a reader passes an event on
  | passed (link : LinkId) (event : LinkEvent) (task : ReaderTask) (reads : task ∈ e.readers) :
    Moved e (.read link event) (e.passOn task event)

/-! ## There are no other cases -/

variable {e : Ensemble} {reaction : Ensemble × List Effect}

theorem exists_of_callFirst {number : Nat} {deadline : Option Nat} {pinned : Bool}
    {attempts next : List Attempt} (h : callFirst number deadline pinned attempts = some next) :
    ∃ before attempt after, attempt.number = none ∧ (∀ other ∈ before, other.number ≠ none) ∧
      attempts = before ++ attempt :: after ∧
      next = before ++ { attempt with number := some number, deadline, pinned } :: after := by
  induction attempts generalizing next with
  | nil => simp [callFirst] at h
  | cons attempt rest ih =>
    rw [callFirst] at h
    split at h
    · rename_i huncalled
      obtain rfl := Option.some.inj h
      exact ⟨[], attempt, rest, Option.isNone_iff_eq_none.mp huncalled, by simp, rfl, rfl⟩
    · rename_i hcalled
      obtain ⟨later, hlater, rfl⟩ := Option.map_eq_some_iff.mp h
      obtain ⟨before, first, after, huncalled, hbefore, rfl, rfl⟩ := ih hlater
      refine ⟨attempt :: before, first, after, huncalled, ?_, rfl, rfl⟩
      intro other hmem
      obtain rfl | hmem := List.mem_cons.mp hmem
      · simpa using hcalled
      · exact hbefore other hmem

theorem calls_of_takeAttempt {number : Nat} {attempt : Attempt} {next : Ensemble}
    (h : e.takeAttempt number = some (attempt, next)) :
    e.Calls number attempt ∧ next = e.withoutAttempt number := by
  simp only [takeAttempt, Option.bind_eq_bind, Option.pure_def, Option.bind_eq_some_iff,
    Option.some.injEq, Prod.mk.injEq] at h
  obtain ⟨found, hfound, rfl, rfl⟩ := h
  have hnumber := List.find?_some hfound
  exact ⟨⟨List.mem_of_find?_eq_some hfound, by simpa using hnumber⟩, rfl⟩

theorem moved_submit {command : Command} (h : e.move (.submit command) = some reaction) :
    e.Moved (.submit command) reaction := by
  rw [move] at h
  by_cases present : e.present = true
  · rw [if_neg (by simp [present]), Option.ite_none_right_eq_some, Option.some.injEq] at h
    obtain ⟨attached, rfl⟩ := h
    exact .submitted command present attached
  · rw [if_pos (by simp [present])] at h
    obtain rfl := Option.some.inj h
    exact .refused command (by simpa using present)

theorem moved_handle {panicking : List ObserverId}
    (h : e.move (.handle panicking) = some reaction) : e.Moved (.handle panicking) reaction := by
  simp only [Ensemble.move, Option.ite_none_right_eq_some, Option.map_eq_some_iff,
    Bool.and_eq_true, beq_iff_eq] at h
  obtain ⟨⟨present, ready⟩, ⟨input, rest⟩, hnext, rfl⟩ := h
  unfold nextInput at hnext
  split at hnext
  · rename_i message later hinbox
    obtain ⟨rfl, rfl⟩ := Prod.mk.inj (Option.some.inj hnext)
    exact .messaged panicking message later present ready hinbox
  · rename_i command later hinbox hcommands
    obtain ⟨rfl, rfl⟩ := Prod.mk.inj (Option.some.inj hnext)
    exact .commanded panicking command later present ready hinbox hcommands
  · rename_i hinbox hcommands
    split at hnext
    · simp at hnext
    · rename_i unattached
      obtain ⟨rfl, rfl⟩ := Prod.mk.inj (Option.some.inj hnext)
      exact .deserted panicking present ready hinbox hcommands (by simpa using unattached)

/-- A possible move is one of the cases. -/
theorem moved {move : Move} (h : e.move move = some reaction) : e.Moved move reaction := by
  cases move with
  | submit command => exact moved_submit h
  | handle panicking => exact moved_handle h
  | elapse span =>
    obtain rfl := Option.some.inj h
    exact .elapsed span
  | detach =>
    simp only [Ensemble.move, Option.ite_none_right_eq_some, Option.some.injEq] at h
    obtain ⟨attached, rfl⟩ := h
    exact .detached attached
  | written result =>
    simp only [Ensemble.move, Option.ite_none_right_eq_some, Option.some.injEq] at h
    obtain ⟨writing, rfl⟩ := h
    exact .wrote result writing
  | closed result =>
    simp only [Ensemble.move, Option.ite_none_right_eq_some, Option.some.injEq] at h
    obtain ⟨closing, rfl⟩ := h
    exact .closed result closing
  | closeExpired =>
    simp only [Ensemble.move, Option.ite_none_right_eq_some, Option.some.injEq,
      Bool.and_eq_true] at h
    obtain ⟨⟨closing, late⟩, rfl⟩ := h
    exact .expired closing late
  | collapse =>
    simp only [Ensemble.move, Option.ite_none_right_eq_some, Option.some.injEq] at h
    obtain ⟨blocked, rfl⟩ := h
    exact .collapsed blocked
  | callOpen pinned =>
    simp only [Ensemble.move, Option.map_eq_some_iff] at h
    obtain ⟨attempts, hcalled, rfl⟩ := h
    obtain ⟨before, attempt, after, uncalled, first, hattempts, rfl⟩ := exists_of_callFirst hcalled
    exact .called pinned before attempt after uncalled first hattempts
  | answerOpen number result =>
    simp only [Ensemble.move, Option.bind_eq_bind, Option.bind_eq_some_iff,
      Option.ite_none_right_eq_some, Option.some.injEq, Option.isNone_iff_eq_none] at h
    obtain ⟨⟨attempt, rest⟩, htaken, unanswered, rfl⟩ := h
    obtain ⟨calls, rfl⟩ := calls_of_takeAttempt htaken
    exact .answered number result attempt ⟨calls, unanswered⟩
  | completeOpen number result =>
    simp only [Ensemble.move, Option.ite_none_right_eq_some, Option.some.injEq,
      List.any_eq_true] at h
    obtain ⟨⟨attempt, hmem, hawaits⟩, rfl⟩ := h
    obtain ⟨hnumber, unanswered⟩ := attempt.awaits_iff.mp hawaits
    exact .completed number result attempt ⟨⟨hmem, hnumber⟩, unanswered⟩
  | reportOpen number result =>
    simp only [Ensemble.move, Option.bind_eq_bind, Option.bind_eq_some_iff,
      Option.ite_none_right_eq_some, Option.some.injEq] at h
    obtain ⟨⟨attempt, rest⟩, htaken, done, rfl⟩ := h
    obtain ⟨calls, rfl⟩ := calls_of_takeAttempt htaken
    exact .reported number result attempt calls done
  | collapseOpen number =>
    simp only [Ensemble.move, Option.bind_eq_bind, Option.bind_eq_some_iff,
      Option.ite_none_right_eq_some, Option.some.injEq, Option.isNone_iff_eq_none] at h
    obtain ⟨⟨attempt, rest⟩, htaken, unanswered, rfl⟩ := h
    obtain ⟨calls, rfl⟩ := calls_of_takeAttempt htaken
    exact .vanished number attempt ⟨calls, unanswered⟩
  | expireOpen number =>
    simp only [Ensemble.move, Option.bind_eq_bind, Option.bind_eq_some_iff,
      Option.ite_none_right_eq_some, Option.some.injEq, Bool.and_eq_true,
      Option.isNone_iff_eq_none] at h
    obtain ⟨⟨attempt, rest⟩, htaken, ⟨unanswered, late⟩, rfl⟩ := h
    obtain ⟨calls, rfl⟩ := calls_of_takeAttempt htaken
    exact .timedOut number attempt ⟨calls, unanswered⟩ late
  | pinReader link =>
    simp only [Ensemble.move, Option.ite_none_right_eq_some, Option.some.injEq] at h
    obtain ⟨-, rfl⟩ := h
    exact .fastened link
  | read link event =>
    simp only [Ensemble.move, Option.map_eq_some_iff] at h
    obtain ⟨task, hfound, rfl⟩ := h
    exact .passed link event task (List.mem_of_find?_eq_some hfound)

/-! ## What the effects of the manager mean for the tasks -/

/-- Everything but the tasks and the limit of a close is as before. -/
structure Framed (e next : Ensemble) : Prop where
  manager_eq : next.manager = e.manager
  limit_eq : next.limit = e.limit
  present_eq : next.present = e.present
  attached_eq : next.attached = e.attached
  commands_eq : next.commands = e.commands
  inbox_eq : next.inbox = e.inbox
  opens_eq : next.opens = e.opens
  clock_eq : next.clock = e.clock

theorem framed_foldl_absorb (e : Ensemble) (effects : List Effect) :
    e.Framed (effects.foldl absorb e) := by
  induction effects generalizing e with
  | nil => constructor <;> rfl
  | cons effect rest ih =>
    have hfirst : e.Framed (e.absorb effect) := by cases effect <;> constructor <;> rfl
    have hrest := ih (e.absorb effect)
    exact ⟨hrest.manager_eq.trans hfirst.manager_eq, hrest.limit_eq.trans hfirst.limit_eq,
      hrest.present_eq.trans hfirst.present_eq, hrest.attached_eq.trans hfirst.attached_eq,
      hrest.commands_eq.trans hfirst.commands_eq, hrest.inbox_eq.trans hfirst.inbox_eq,
      hrest.opens_eq.trans hfirst.opens_eq, hrest.clock_eq.trans hfirst.clock_eq⟩

section Feed

variable (e) (input : Input)

@[simp]
theorem feed_manager : (e.feed input).1.manager = (e.manager.step input).1 :=
  (framed_foldl_absorb { e with manager := (e.manager.step input).1 } _).manager_eq

@[simp]
theorem feed_inbox : (e.feed input).1.inbox = e.inbox :=
  (framed_foldl_absorb { e with manager := (e.manager.step input).1 } _).inbox_eq

@[simp]
theorem feed_snd : (e.feed input).2 = (e.manager.step input).2 := rfl

theorem feed_attempts :
    (e.feed input).1.attempts = ((e.manager.step input).2.foldl absorb
      { e with manager := (e.manager.step input).1 }).attempts := rfl

theorem feed_present :
    (e.feed input).1.present = (e.present && (e.manager.step input).1.activity != .ended) := by
  have h := framed_foldl_absorb { e with manager := (e.manager.step input).1 }
    (e.manager.step input).2
  simp only [feed, h.present_eq]

end Feed

/-- The attempts in flight are those from before, unless they were given up, and those started. -/
theorem attempts_foldl_absorb_sublist (e : Ensemble) (effects : List Effect) :
    (effects.foldl absorb e).attempts.Sublist
      (e.attempts ++
        (Effect.attempts effects).map fun generation => ({ generation } : Attempt)) := by
  induction effects generalizing e with
  | nil => simp
  | cons effect rest ih =>
    refine (ih (e.absorb effect)).trans ?_
    simp only [Effect.seen_cons, List.map_append, ← List.append_assoc]
    refine List.Sublist.append_right ?_ _
    cases effect with
    | startAttempt generation => simp [absorb, Effect.attempt?]
    | abandonAttempt => simp [absorb, Effect.attempt?]
    | _ => simp [absorb, Effect.attempt?]

theorem generations_foldl_absorb_sublist (e : Ensemble) (effects : List Effect) :
    ((effects.foldl absorb e).attempts.map (·.generation)).Sublist
      (e.attempts.map (·.generation) ++ Effect.attempts effects) := by
  simpa [Function.comp_def] using
    (attempts_foldl_absorb_sublist e effects).map (·.generation)

/-- An attempt in flight was so before, or has just been started. -/
theorem of_mem_attempts_foldl_absorb {effects : List Effect} {attempt : Attempt}
    (h : attempt ∈ (effects.foldl absorb e).attempts) :
    attempt ∈ e.attempts ∨ ∃ generation ∈ Effect.attempts effects, attempt = { generation } := by
  have hmem := (attempts_foldl_absorb_sublist e effects).subset h
  simpa [eq_comm] using hmem

/-- The readers are those from before, unless they were given up, and those started. -/
theorem of_mem_readers_foldl_absorb {effects : List Effect} {task : ReaderTask}
    (h : task ∈ (effects.foldl absorb e).readers) :
    (∃ earlier ∈ e.readers, earlier.generation = task.generation) ∨
      task.generation ∈ Effect.readers effects := by
  induction effects generalizing e with
  | nil => exact .inl ⟨task, h, rfl⟩
  | cons effect rest ih =>
    rw [Effect.readers, Effect.seen_cons, List.mem_append]
    obtain ⟨earlier, hmem, hsame⟩ | hlater := ih h
    · cases effect with
      | startReader link generation =>
        obtain hmem | rfl : earlier ∈ e.readers ∨ earlier = { link, generation } := by
          simpa [absorb] using hmem
        · exact .inl ⟨earlier, hmem, hsame⟩
        · exact .inr (.inl (by simp [Effect.reader?, ← hsame]))
      | abandonReader =>
        obtain ⟨first, hfirst, rfl⟩ := List.mem_map.mp hmem
        exact .inl ⟨first, (List.mem_filter.mp hfirst).1, hsame⟩
      | _ => exact .inl ⟨earlier, hmem, hsame⟩
    · exact .inr (.inr hlater)

/-! ## Runs -/

/-- A run begins with its first move. -/
theorem exists_of_run_cons {move : Move} {moves : List Move} {last : Ensemble}
    {effects : List Effect} (hrun : e.run (move :: moves) = some (last, effects)) :
    ∃ next first later, e.move move = some (next, first) ∧
      next.run moves = some (last, later) ∧ effects = first ++ later := by
  simp only [run, Option.bind_eq_bind, Option.pure_def, Option.bind_eq_some_iff] at hrun
  obtain ⟨⟨next, first⟩, hmove, ⟨final, later⟩, hrest, hlast⟩ := hrun
  obtain ⟨rfl, rfl⟩ := Prod.mk.inj (Option.some.inj hlast)
  exact ⟨next, first, later, hmove, hrest, rfl⟩

end Ensemble

end PersistentLink
