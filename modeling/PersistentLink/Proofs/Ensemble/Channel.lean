import PersistentLink.Proofs.Ensemble.Moves

/-!
# What a manager is fed

Among its tasks and callers a manager sees a list of inputs. Which one comes next is up to the
other parties, but a command waits in the queue until its turn, so commands are handled in the
order in which they were given, whoever gave them.

## Main definitions

- `Ensemble.fed`: the inputs that the manager sees in a run of all parties
- `Ensemble.entered`: the commands that enter the queue
- `Ensemble.Aside`: neither the manager nor its queue of commands has changed
- `Ensemble.Feeds`: what a move means for the manager and its queue of commands

## Main results

- `Ensemble.feeds_of_move`: a move is handled as the input it is
- `Ensemble.feeds_of_run`: the manager goes through the run of its inputs, and handles commands in
  the order of entry
-/

namespace PersistentLink.Ensemble

open Manager

/-- The input that a move is to the manager. -/
def inputOf (e : Ensemble) : Move → Option Input
  | .handle panicking => (e.nextInput panicking).map (·.1)
  | .written result => some (.written result)
  | .closed (.ok _) => some (.closed .done)
  | .closed (.error error) => some (.closed (.failed error))
  | .closeExpired => some (.closed .timedOut)
  | _ => none

/-- The inputs that the manager sees in a run. -/
def fed (e : Ensemble) : List Move → List Input
  | [] => []
  | move :: rest =>
    (e.inputOf move).toList ++
      match e.move move with
      | some (next, _) => next.fed rest
      | none => []

/-- The commands that enter the queue by a move. -/
def admitted (e : Ensemble) : Move → Option Command
  | .submit command => if e.present then some command else none
  | _ => none

/-- The commands that enter the queue in a run, in order. -/
def entered (e : Ensemble) : List Move → List Command
  | [] => []
  | move :: rest =>
    (e.admitted move).toList ++
      match e.move move with
      | some (next, _) => next.entered rest
      | none => []

/-- Neither the manager nor its queue of commands has changed. -/
structure Aside (e next : Ensemble) : Prop where
  manager_eq : next.manager = e.manager
  commands_eq : next.commands = e.commands

/-! ## One move -/

variable {e next : Ensemble}

theorem aside_absorb (e : Ensemble) (effect : Effect) : e.Aside (e.absorb effect) := by
  cases effect <;> exact ⟨rfl, rfl⟩

theorem aside_foldl_absorb (e : Ensemble) (effects : List Effect) :
    e.Aside (effects.foldl absorb e) := by
  induction effects generalizing e with
  | nil => exact ⟨rfl, rfl⟩
  | cons effect rest ih =>
    have hfirst := e.aside_absorb effect
    have hrest := ih (e.absorb effect)
    exact ⟨hrest.manager_eq.trans hfirst.manager_eq, hrest.commands_eq.trans hfirst.commands_eq⟩

/-- A manager that is fed an input makes a step, and no command enters or leaves the queue. -/
theorem feed_fst (e : Ensemble) (input : Input) :
    (e.feed input).1.manager = (e.manager.step input).1 ∧
      (e.feed input).1.commands = e.commands := by
  have h := aside_foldl_absorb { e with manager := (e.manager.step input).1 }
    (e.manager.step input).2
  exact ⟨h.manager_eq, h.commands_eq⟩

theorem aside_post (e : Ensemble) (message : Message) (orphaned : List Effect) :
    e.Aside (e.post message orphaned).1 := by
  rw [post]
  split <;> exact ⟨rfl, rfl⟩

theorem aside_endAttempt (e : Ensemble) (number : Nat) (attempt : Attempt)
    (result : Except Failure LinkId) :
    e.Aside ((e.withoutAttempt number).endAttempt attempt result).1 := by
  have hposted := (e.withoutAttempt number).aside_post
    (.attemptFinished attempt.generation result) [.log (.attemptOrphaned attempt.generation)]
  exact ⟨hposted.manager_eq, hposted.commands_eq⟩

/-- What a move means for the manager and its queue of commands. -/
structure Feeds (e : Ensemble) (move : Move) (next : Ensemble) : Prop where
  manager_eq : next.manager = (e.manager.run (e.inputOf move).toList).1
  handled_append : e.manager.handled (e.inputOf move).toList ++ next.commands =
    e.commands ++ (e.admitted move).toList

theorem Aside.feeds {move : Move} (h : e.Aside next) (hinput : e.inputOf move = none)
    (hadmitted : e.admitted move = none) : e.Feeds move next := by
  refine ⟨?_, ?_⟩
  · rw [hinput]
    exact h.manager_eq
  · rw [hinput, hadmitted, h.commands_eq]
    simp

theorem feeds_outcome {move : Move} {input : Input} (hinput : e.inputOf move = some input)
    (hadmitted : e.admitted move = none) (hheard : ∀ command, input ≠ .command command)
    (haside : e.Aside next) : e.Feeds move (next.feed input).1 := by
  obtain ⟨hmanager, hcommands⟩ := next.feed_fst input
  have hsilent : e.manager.heard input = none := by
    rw [Option.eq_none_iff_forall_not_mem]
    intro command hmem
    exact hheard command (e.manager.heard_eq_some.mp hmem).2
  refine ⟨?_, ?_⟩
  · rw [hinput, hmanager, haside.manager_eq, Option.toList_some, run_singleton]
  · rw [hinput, hadmitted, hcommands, haside.commands_eq]
    simp [handled, hsilent]

/-- The manager takes a command from the front of the queue. -/
theorem feeds_command {panicking : List ObserverId} {command : Command} {rest : List Command}
    (ready : e.manager.activity = .ready) (silent : e.inbox = [])
    (first : e.commands = command :: rest) :
    e.Feeds (.handle panicking) ({ e with commands := rest }.feed (.command command)).1 := by
  have hinput : e.inputOf (.handle panicking) = some (.command command) := by
    simp [inputOf, nextInput, silent, first]
  have hheard : e.manager.heard (.command command) = some command :=
    e.manager.heard_eq_some.mpr ⟨ready, rfl⟩
  obtain ⟨hmanager, hcommands⟩ := { e with commands := rest }.feed_fst (.command command)
  refine ⟨?_, ?_⟩
  · rw [hinput, hmanager, Option.toList_some, run_singleton]
  · rw [hinput, hcommands, first]
    simp [handled, hheard, admitted]

/-- A move of any party means for the manager what the input says that it is. -/
theorem feeds_of_move {move : Move} {effects : List Effect}
    (h : e.move move = some (next, effects)) : e.Feeds move next := by
  generalize hreaction : (next, effects) = reaction at h
  obtain rfl : next = reaction.1 := congrArg Prod.fst hreaction
  cases moved h with
  | refused command gone => exact Aside.feeds ⟨rfl, rfl⟩ rfl (by simp [admitted, gone])
  | submitted command present => exact ⟨rfl, by simp [inputOf, admitted, present]⟩
  | messaged panicking message rest present ready first =>
    have hinput : e.inputOf (.handle panicking) = some (message.toInput panicking) := by
      simp [inputOf, nextInput, first]
    exact feeds_outcome hinput rfl (by cases message <;> simp [Message.toInput]) ⟨rfl, rfl⟩
  | commanded panicking command rest present ready silent first =>
    exact feeds_command ready silent first
  | deserted panicking present ready silent unasked unattached =>
    have hinput : e.inputOf (.handle panicking) = some .commandsEnded := by
      simp [inputOf, nextInput, silent, unasked, unattached]
    exact feeds_outcome hinput rfl (by simp) ⟨rfl, rfl⟩
  | wrote => exact feeds_outcome rfl rfl (by simp) ⟨rfl, rfl⟩
  | closed result =>
    have haside : e.Aside { e with closeDeadline := none } := ⟨rfl, rfl⟩
    cases result <;> exact feeds_outcome rfl rfl (by simp) haside
  | expired =>
    have haside : e.Aside { e with closeDeadline := none } := ⟨rfl, rfl⟩
    exact feeds_outcome rfl rfl (by simp) haside
  | answered number result attempt | reported number result attempt =>
    exact (e.aside_endAttempt number attempt result).feeds rfl rfl
  | timedOut number attempt => exact (e.aside_endAttempt number attempt _).feeds rfl rfl
  | detached | elapsed | collapsed | called | completed | vanished | fastened | passed =>
    exact Aside.feeds ⟨rfl, rfl⟩ rfl rfl

/-! ## Runs -/

/-- **Commands are handled in order.** In a run of all parties the manager goes through the run of
the inputs it is fed, and the commands it has handled, followed by those that still wait, are the
commands that entered the queue. -/
theorem feeds_of_run {moves : List Move} {effects : List Effect}
    (h : e.run moves = some (next, effects)) :
    next.manager = (e.manager.run (e.fed moves)).1 ∧
      e.manager.handled (e.fed moves) ++ next.commands = e.commands ++ e.entered moves := by
  induction moves generalizing e effects with
  | nil =>
    obtain ⟨rfl, -⟩ := Prod.mk.inj (Option.some.inj h)
    exact ⟨rfl, by simp [fed, entered]⟩
  | cons move rest ih =>
    obtain ⟨mid, first, later, hmove, hrest, -⟩ := exists_of_run_cons h
    obtain ⟨hmanager, hhandled⟩ := feeds_of_move hmove
    obtain ⟨hrun, hqueue⟩ := ih hrest
    simp only [fed, entered, hmove]
    refine ⟨?_, ?_⟩
    · rw [hrun, hmanager, run_append]
      rfl
    · rw [handled_append, ← hmanager, List.append_assoc, hqueue, ← List.append_assoc, hhandled,
        List.append_assoc]

end PersistentLink.Ensemble
