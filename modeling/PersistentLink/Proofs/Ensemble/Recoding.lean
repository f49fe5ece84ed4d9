import PersistentLink.Proofs.Ensemble.Ownership
import PersistentLink.Proofs.Manager.Inbound
import PersistentLink.Proofs.Manager.Renaming

/-!
# Nothing depends on what payloads say

A run in which other payloads of the same sizes are sent and come in, while everything else that
callers, transport, links and observers do stays, is the same run with the other payloads in it.

## Main definitions

- `Move.recode`, `Ensemble.recode`: moves and parties with other payloads

## Main results

- `Ensemble.move_recode`, `Ensemble.run_recode`: moves and runs commute with a recoding
- `Ensemble.payloads_opaque`: a run shows the same, with the other payloads
-/

namespace PersistentLink

namespace Effect

variable (recoding : Recoding)

/-- A view that payloads do not show in. -/
theorem seen_map_recode {α : Type} {view : Effect → Option α}
    (blind : ∀ effect, view (effect.recode recoding) = view effect) (effects : List Effect) :
    seen view (effects.map (recode recoding)) = seen view effects := by
  rw [seen, seen, List.filterMap_map]
  exact List.filterMap_congr fun effect _ => blind effect

/-- A view of the payloads that are given to somebody. -/
theorem seen_map_recode_of_map {α : Type} {view : Effect → Option (α × Payload)}
    (sees : ∀ effect, view (effect.recode recoding) = (view effect).map (Prod.map id recoding))
    (effects : List Effect) :
    seen view (effects.map (recode recoding)) =
      (seen view effects).map (Prod.map id recoding) := by
  rw [seen, seen, List.filterMap_map, List.map_filterMap]
  exact List.filterMap_congr fun effect _ => sees effect

/-- What is done without a payload stays as it is, in the same order. -/
theorem filter_payload?_map_recode (effects : List Effect) :
    (effects.map (recode recoding)).filter (·.payload?.isNone) =
      effects.filter (·.payload?.isNone) := by
  induction effects with
  | nil => rfl
  | cons effect rest ih =>
    rw [List.map_cons, List.filter_cons, List.filter_cons, ih, payload?_recode, Option.isNone_map]
    cases hpayload : effect.payload? with
    | none => rw [recode_of_payload? recoding hpayload]
    | some payload => rfl

end Effect

variable (recoding : Recoding)

/-- The message of a task with its payload recoded. -/
def Message.recode : Message → Message
  | linkEvent generation event => linkEvent generation (event.recode recoding)
  | message => message

/-- The move with its payload recoded. -/
def Move.recode : Move → Move
  | submit command => submit (command.recode recoding)
  | read link event => read link (event.recode recoding)
  | move => move

namespace Ensemble

/-- The parties with their payloads recoded. -/
def recode (e : Ensemble) : Ensemble :=
  { e with
    manager := e.manager.recode recoding
    commands := e.commands.map (Command.recode recoding)
    inbox := e.inbox.map (Message.recode recoding) }

/-- What comes of a move, with its payloads recoded. -/
def recodeOutcome (outcome : Ensemble × List Effect) : Ensemble × List Effect :=
  (outcome.1.recode recoding, outcome.2.map (Effect.recode recoding))

variable (e : Ensemble)

/-! ## The parts of a move -/

theorem absorb_recode (effect : Effect) :
    (e.recode recoding).absorb (effect.recode recoding) = (e.absorb effect).recode recoding := by
  cases effect <;> rfl

theorem foldl_absorb_recode (effects : List Effect) :
    (effects.map (Effect.recode recoding)).foldl absorb (e.recode recoding) =
      (effects.foldl absorb e).recode recoding := by
  induction effects generalizing e with
  | nil => rfl
  | cons effect rest ih => rw [List.map_cons, List.foldl_cons, absorb_recode, ih, List.foldl_cons]

theorem feed_recode (input : Input) :
    (e.recode recoding).feed (input.recode recoding) = recodeOutcome recoding (e.feed input) := by
  have hstep : (e.recode recoding).manager.step (input.recode recoding) =
      (e.manager.step input).recode recoding :=
    Manager.step_recode recoding e.manager input
  have habsorb : ((e.manager.step input).2.map (Effect.recode recoding)).foldl absorb
      { e.recode recoding with manager := (e.manager.step input).1.recode recoding } =
        ((e.manager.step input).2.foldl absorb
          { e with manager := (e.manager.step input).1 }).recode recoding :=
    foldl_absorb_recode recoding { e with manager := (e.manager.step input).1 }
      (e.manager.step input).2
  have hended : ((e.manager.step input).1.recode recoding).activity != .ended ↔
      (e.manager.step input).1.activity != .ended := by
    cases hactivity : (e.manager.step input).1.activity <;> simp [Manager.recode, hactivity]
  rw [feed, feed, hstep]
  simp only [Reaction.recode, habsorb, Bool.eq_iff_iff.mpr hended]
  rfl

theorem post_recode (message : Message) {orphaned : List Effect}
    (blank : orphaned.map (Effect.recode recoding) = orphaned) :
    (e.recode recoding).post (message.recode recoding) orphaned =
      recodeOutcome recoding (e.post message orphaned) := by
  cases hpresent : e.present <;> simp [post, recode, recodeOutcome, hpresent, blank]

theorem refuse_recode (command : Command) :
    refuse (command.recode recoding) = (refuse command).map (Effect.recode recoding) := by
  cases command <;> rfl

theorem toInput_recode (message : Message) (panicking : List ObserverId) :
    (message.recode recoding).toInput panicking = (message.toInput panicking).recode recoding := by
  cases message <;> rfl

theorem nextInput_recode (panicking : List ObserverId) :
    (e.recode recoding).nextInput panicking =
      (e.nextInput panicking).map (Prod.map (Input.recode recoding) (recode recoding)) := by
  cases hinbox : e.inbox with
  | cons message rest =>
    simp [nextInput, recode, hinbox, toInput_recode]
  | nil =>
    cases hcommands : e.commands with
    | cons command rest => simp [nextInput, recode, Input.recode, hinbox, hcommands]
    | nil =>
      cases hattached : e.attached <;>
        simp [nextInput, recode, Input.recode, hinbox, hcommands, hattached]

theorem takeAttempt_recode (number : Nat) :
    (e.recode recoding).takeAttempt number =
      (e.takeAttempt number).map (Prod.map id (recode recoding)) := by
  cases hfound : e.attempts.find? (·.number == some number) <;>
    simp [takeAttempt, recode, hfound]

theorem endAttempt_recode (attempt : Attempt) (result : Except Failure LinkId) :
    (e.recode recoding).endAttempt attempt result =
      recodeOutcome recoding (e.endAttempt attempt result) :=
  post_recode recoding e (.attemptFinished attempt.generation result) rfl

theorem pass_recode (generation : Nat) (event : LinkEvent) (listening : Bool) :
    LinkReader.pass generation (event.recode recoding) listening =
      LinkReader.pass generation event listening := by
  cases event <;> rfl

theorem passOn_recode (task : ReaderTask) (event : LinkEvent) :
    (e.recode recoding).passOn task (event.recode recoding) =
      recodeOutcome recoding (e.passOn task event) := by
  have hpresent : (e.recode recoding).present = e.present := rfl
  simp only [passOn, pass_recode, hpresent]
  cases e.present <;> simp [LinkReader.pass, recodeOutcome, recode, Message.recode]

/-! ## Moves -/

@[simp]
theorem present_recode : (e.recode recoding).present = e.present := rfl

@[simp]
theorem ready_recode :
    ((e.recode recoding).manager.activity == .ready) = (e.manager.activity == .ready) := by
  cases hactivity : e.manager.activity <;> simp [recode, Manager.recode, hactivity]

@[simp]
theorem isWriting_recode : (e.recode recoding).isWriting = e.isWriting := by
  cases hactivity : e.manager.activity <;> simp [isWriting, recode, Manager.recode, hactivity]

@[simp]
theorem isClosing_recode : (e.recode recoding).isClosing = e.isClosing := by
  cases hactivity : e.manager.activity <;> simp [isClosing, recode, Manager.recode, hactivity]

@[simp]
theorem isBlocked_recode : (e.recode recoding).isBlocked = e.isBlocked := by
  simp [isBlocked]

theorem endClose_recode (outcome : CloseOutcome) :
    (e.recode recoding).endClose outcome = recodeOutcome recoding (e.endClose outcome) :=
  feed_recode recoding { e with closeDeadline := none } (.closed outcome)

/-- What can happen with some payloads can happen with others, and comes out the same. -/
theorem move_recode (move : Move) :
    (e.recode recoding).move (move.recode recoding) =
      (e.move move).map (recodeOutcome recoding) := by
  cases move with
  | submit command =>
    cases hpresent : e.present <;> cases hattached : e.attached <;>
      simp [Ensemble.move, Move.recode, recode, recodeOutcome, hpresent, hattached, refuse_recode]
  | detach =>
    cases hattached : e.attached <;>
      simp [Ensemble.move, Move.recode, recode, recodeOutcome, hattached]
  | elapse span => rfl
  | handle panicking =>
    simp only [Move.recode, Ensemble.move, ready_recode, nextInput_recode, present_recode]
    split
    · cases e.nextInput panicking with
      | none => rfl
      | some next => exact congrArg some (feed_recode recoding next.2 next.1)
    · rfl
  | written result =>
    simp only [Move.recode, Ensemble.move, isWriting_recode]
    split
    · exact congrArg some (feed_recode recoding e (.written result))
    · rfl
  | closed result =>
    simp only [Move.recode, Ensemble.move, isClosing_recode]
    split
    · exact congrArg some (endClose_recode recoding e _)
    · rfl
  | closeExpired =>
    have hreached : (e.recode recoding).reached (e.recode recoding).closeDeadline =
        e.reached e.closeDeadline := rfl
    simp only [Move.recode, Ensemble.move, isClosing_recode, hreached]
    split
    · exact congrArg some (endClose_recode recoding e .timedOut)
    · rfl
  | collapse =>
    simp only [Move.recode, Ensemble.move, isBlocked_recode]
    cases e.isBlocked <;> rfl
  | callOpen pinned =>
    simp only [Move.recode, Ensemble.move, Option.map_map]
    rfl
  | answerOpen number result | reportOpen number result | collapseOpen number
      | expireOpen number =>
    simp only [Move.recode, Ensemble.move, takeAttempt_recode]
    cases e.takeAttempt number with
    | none => rfl
    | some taken =>
      have hended (result : Except Failure LinkId) :=
        endAttempt_recode recoding taken.2 taken.1 result
      have hreached : (e.recode recoding).reached taken.1.deadline = e.reached taken.1.deadline :=
        rfl
      have hdropped : (taken.2.recode recoding, []) = recodeOutcome recoding (taken.2, []) := rfl
      cases houtcome : taken.1.outcome <;> simp [hended, hreached, houtcome, hdropped]
  | completeOpen number result =>
    have hattempts : (e.recode recoding).attempts = e.attempts := rfl
    simp only [Move.recode, Ensemble.move, hattempts]
    split <;> rfl
  | pinReader link =>
    cases hread : e.readers.any (·.link == link) <;>
      simp [Ensemble.move, Move.recode, recode, recodeOutcome, hread]
  | read link event =>
    have hreaders : (e.recode recoding).readers = e.readers := rfl
    simp only [Move.recode, Ensemble.move, hreaders, passOn_recode, Option.map_map]
    rfl

/-- A run with other payloads is the run with its payloads recoded. -/
theorem run_recode (moves : List Move) :
    (e.recode recoding).run (moves.map (Move.recode recoding)) =
      (e.run moves).map (recodeOutcome recoding) := by
  induction moves generalizing e with
  | nil => rfl
  | cons move rest ih =>
    rw [List.map_cons, run, run, move_recode]
    cases hmove : e.move move with
    | none => rfl
    | some first =>
      obtain ⟨next, effects⟩ := first
      simp only [Option.map_some, recodeOutcome, Option.bind_eq_bind, Option.bind_some, ih]
      cases hrest : next.run rest <;> simp [recodeOutcome]

/-! ## What a run shows -/

theorem deedOf_recode (move : Move) :
    (e.recode recoding).deedOf (move.recode recoding) = e.deedOf move := by
  cases move <;> rfl

/-- The transport and the writers see nothing of a recoding. -/
theorem journal_recode (moves : List Move) :
    (e.recode recoding).journal (moves.map (Move.recode recoding)) = e.journal moves := by
  induction moves generalizing e with
  | nil => rfl
  | cons move rest ih =>
    rw [List.map_cons, journal, journal, move_recode, deedOf_recode]
    cases hmove : e.move move with
    | none => rfl
    | some made =>
      have hdeeds : Effect.deeds (e.recode recoding).clock
          (made.2.map (Effect.recode recoding)) = Effect.deeds e.clock made.2 :=
        Effect.seen_map_recode recoding (fun effect => by cases effect <;> rfl) made.2
      simp only [Option.map_some, recodeOutcome, hdeeds, ih]

/-- **Payloads are opaque.** Let other payloads of the same sizes be sent and come in, and let
everything else that callers, transport, links and observers do stay. Then what was possible is
possible, and the same is done in the same order: the events, phases, answers, reports and records
are the same, at every severity, and so is all that is done with links and when. What is handed to
writers and shown to observers are the other payloads. -/
theorem payloads_opaque {settings : Settings} {moves : List Move} {last : Ensemble}
    {effects : List Effect} (hrun : (ofSettings settings).run moves = some (last, effects)) :
    let others := moves.map (Move.recode recoding)
    ∃ shown, (ofSettings settings).run others = some (last.recode recoding, shown) ∧
      shown.filter (·.payload?.isNone) = effects.filter (·.payload?.isNone) ∧
      Effect.events shown = Effect.events effects ∧
      Effect.phases shown = Effect.phases effects ∧
      Effect.answers shown = Effect.answers effects ∧
      Effect.reports shown = Effect.reports effects ∧
      Effect.records shown = Effect.records effects ∧
      (ofSettings settings).journal others = (ofSettings settings).journal moves ∧
      Effect.writes shown = (Effect.writes effects).map (Prod.map id recoding) ∧
      Effect.observations shown = (Effect.observations effects).map (Prod.map id recoding) := by
  intro others
  have hothers := run_recode recoding (ofSettings settings) moves
  have hstart : (ofSettings settings).recode recoding = ofSettings settings := rfl
  have hjournal := journal_recode recoding (ofSettings settings) moves
  rw [hstart] at hothers hjournal
  rw [hrun, Option.map_some, recodeOutcome] at hothers
  refine ⟨effects.map (Effect.recode recoding), hothers,
    Effect.filter_payload?_map_recode recoding effects, ?events, ?phases, ?answers, ?reports,
    ?records, hjournal, ?writes, ?observations⟩
  case writes | observations =>
    exact Effect.seen_map_recode_of_map recoding (fun effect => by cases effect <;> rfl)
      effects
  all_goals
    exact Effect.seen_map_recode recoding (fun effect => by cases effect <;> rfl) effects

/-- All that is left of a payload is its size. -/
def zeroed : Recoding where
  apply payload := .binary (List.replicate payload.size 0)
  size_apply payload := by simp [Payload.size]

/-- A write fails, the payload goes back into the queue, and is written over the next link; then a
message comes in. -/
theorem payloads_opaque_zeroed :
    let start := ofSettings {}
    let moves : List Move := [.submit (.addObserver 0), .handle [], .submit (.send (.text "ab")),
      .handle [], .callOpen false, .answerOpen 0 (.ok 7), .handle [],
      .written (.error .connectionClosed), .closed (.ok ()), .submit (.send (.text "c")),
      .handle [], .callOpen false, .answerOpen 1 (.ok 8), .handle [], .written (.ok ()),
      .written (.ok ()), .read 8 (.message (.text "d")), .handle [0]]
    ∃ last effects shown, start.run moves = some (last, effects) ∧
      start.run (moves.map (Move.recode zeroed)) = some (last.recode zeroed, shown) ∧
      Effect.records shown = Effect.records effects ∧
      Effect.writes effects = [(7, .text "ab"), (8, .text "ab"), (8, .text "c")] ∧
      Effect.writes shown = [(7, .binary [0, 0]), (8, .binary [0, 0]), (8, .binary [0])] ∧
      Effect.observations shown = [(0, .binary [0])] := by
  intro start moves
  have hpossible : (start.run moves).isSome = true := by decide +kernel
  have hwrites : (start.run moves).map (Effect.writes ·.2) =
      some [(7, .text "ab"), (8, .text "ab"), (8, .text "c")] := by decide +kernel
  have hobservations : (start.run moves).map (Effect.observations ·.2) = some [(0, .text "d")] := by
    decide +kernel
  obtain ⟨⟨last, effects⟩, hrun⟩ := Option.isSome_iff_exists.mp hpossible
  rw [hrun, Option.map_some, Option.some_inj] at hwrites hobservations
  obtain ⟨shown, hshown, -, -, -, -, -, hrecords, -, hwritten, hobserved⟩ :=
    payloads_opaque zeroed hrun
  refine ⟨last, effects, shown, hrun, hshown, hrecords, hwrites, ?_, ?_⟩
  · rw [hwritten, hwrites]
    decide +kernel
  · rw [hobserved, hobservations]
    decide +kernel

end Ensemble

end PersistentLink
