import PersistentLink.Proofs.Ensemble.Shutdown
import PersistentLink.Proofs.Manager.Attempts
import PersistentLink.Proofs.Scenario.Recording
import PersistentLink.Scenario.Play

/-!
# Callers who go away

A caller who waits for the connection may go away at any time. The manager does not notice: it keeps
the call in its books, carries it over like any other when the attempt fails, and gives the answer
to nobody. So an attempt may be made again for callers all of whom have gone away.

## Main definitions

- `Ensemble.FailsBy`: the attempt in flight fails by a move
- `Happening`, `World.history`: callers ask and go away, and parties make moves
- `World.Alike`: worlds that differ at most in what their callers know
- `World.Tally`: the calls of a world are those of a run of all parties
- `World.RetriesForPresent`: an attempt is made again only for somebody who is still there
- `World.Joined`: callers who have asked for the connection since the attempt was started

## Main results

- `Ensemble.answers_of_run`: as long as the manager is there, nobody else answers
- `World.Alike.history`: who goes away makes no difference to the others
- `World.Tallied.history`: whatever happens in a world, its calls are those of a run
- `World.retry_for_absent`: an attempt that is made again for nobody
- `World.retry_for_joined`: for whom an attempt is made again
-/

namespace PersistentLink

/-! ## Who answers -/

namespace Ensemble

open Manager

variable {settings : Settings} {e last : Ensemble} {move : Move} {moves : List Move}
  {effects : List Effect} {reaction : Ensemble × List Effect}

/-- As long as the manager is there, nobody else answers. -/
theorem Moved.unanswered (moved : e.Moved move reaction) (unseen : move.isSeen = false)
    (present : reaction.1.present = true) : Effect.answers reaction.2 = [] := by
  have orphaned (attempt : Attempt) (result : Except Failure LinkId) (number : Nat) :
      Effect.answers ((e.withoutAttempt number).endAttempt attempt result).2 = [] := by
    rw [endAttempt, post]
    split <;> rfl
  cases moved with
  | refused command gone => exact absurd (present.symm.trans gone) (by decide)
  | answered number result attempt | reported number result attempt =>
    exact orphaned attempt result number
  | timedOut number attempt => exact orphaned attempt _ number
  | passed link event task =>
    cases hpresent : e.present <;> simp [passOn, LinkReader.pass, hpresent, Effect.answer?]
  | submitted | detached | elapsed | collapsed | called | completed | vanished | fastened => rfl
  | _ => simp [Move.isSeen] at unseen

/-- As long as the manager is there, the answers of a run are its own. -/
theorem answers_of_run (hrun : (ofSettings settings).run moves = some (last, effects))
    (present : last.present = true) : Effect.answers effects =
      Effect.answers ((ofSettings settings).manager.run ((ofSettings settings).fed moves)).2 := by
  induction moves using List.reverseRecOn generalizing last effects with
  | nil =>
    obtain ⟨-, rfl⟩ := Prod.mk.inj (Option.some.inj hrun)
    rfl
  | append_singleton moves move ih =>
    obtain ⟨mid, first, later, hmoves, hmove, rfl⟩ := exists_of_run_concat hrun
    have hsplit : Effect.answers (first ++ later) =
        Effect.answers first ++ Effect.answers later := Effect.seen_append
    rw [fed_concat hmoves, hsplit, ih hmoves (present_of_move hmove present)]
    obtain ⟨before, input, hinput, takes, hfed⟩ | ⟨unseen, -⟩ := (moved hmove).takes_or_elsewhere
    · obtain rfl : later = (before.feed input).2 := congrArg Prod.snd hfed
      rw [hinput, Option.toList_some, run_concat_snd, feed_snd, takes.manager_eq,
        (feeds_of_run hmoves).1]
      exact Effect.seen_append.symm
    · rw [inputOf_of_unseen unseen, (moved hmove).unanswered unseen present]
      simp

theorem admitted_unanswered (e : Ensemble)
    (unanswered : move.command?.bind Command.call? = none) :
    (e.admitted move).bind Command.call? = none := by
  cases move with
  | submit command =>
    simp only [admitted]
    split
    · exact unanswered
    · rfl
  | _ => rfl

/-! ## When an attempt is made again -/

/-- The attempt in flight fails by a move. -/
def FailsBy (e : Ensemble) (move : Move) : Prop :=
  ∃ input cause, e.inputOf move = some input ∧ e.manager.Fails input cause

/-- An attempt is made again by a move by which the one in flight fails, exactly if somebody waits
on. -/
theorem Moved.retry_iff (moved : e.Moved move reaction) (hsound : e.manager.Sound) :
    (∃ generation, .emit (.connecting generation .retry) ∈ reaction.2) ↔
      e.FailsBy move ∧ reaction.1.manager.waiting ≠ [] := by
  obtain ⟨before, input, hinput, takes, rfl⟩ | ⟨unseen, elsewhere⟩ := moved.takes_or_elsewhere
  · rw [feed_snd, feed_manager, takes.manager_eq, hsound.retry_iff, FailsBy]
    simp [hinput]
  · constructor
    · rintro ⟨generation, hretry⟩
      obtain ⟨record, hlog⟩ | ⟨call, result, hanswer⟩ := elsewhere.quiet _ hretry
      · cases hlog
      · cases hanswer
    · rintro ⟨⟨input, cause, hinput, -⟩, -⟩
      simp [inputOf_of_unseen unseen] at hinput

end Ensemble

namespace Scenario

/-- What happens in a world. The commands that are answered are given by callers who ask. The handle
of the start is kept; that nobody can give commands any more is a move like any other. -/
inductive Happening
  /-- a caller asks for something, and waits for the answer -/
  | asks (kind : CallKind)
  /-- a caller who waits goes away -/
  | leaves (call : CallId)
  /-- a party makes a move, if it is possible -/
  | moves (move : Move) (unanswered : move.command?.bind Command.call? = none)

/-- Whether nobody goes away. -/
def Happening.stays : Happening → Bool
  | leaves _ => false
  | asks _ | moves .. => true

namespace World

open Ensemble Manager

/-- The world after something has happened. -/
def undergo (w : World) : Happening → World
  | .asks kind => w.issue kind
  | .leaves call => (w.cancel call).2
  | .moves move _ => w.tryMove move

/-- The world after several things have happened. -/
def history (w : World) (happenings : List Happening) : World :=
  happenings.foldl undergo w

variable {w v u : World}

/-! ## Worlds that differ in what their callers know -/

/-- Two worlds differ at most in what their callers know, and in what concerns neither them nor
subscribers. -/
structure Alike (w v : World) : Prop where
  ensemble_eq : v.ensemble = w.ensemble
  observers_eq : v.observers = w.observers
  handles_eq : v.handles = w.handles
  calls_eq : v.calls.size = w.calls.size
  events_eq : v.events = w.events

theorem Untouched.alike (h : Untouched w v) : Alike w v :=
  ⟨h.ensemble_eq, h.observers_eq, h.handles_eq, congrArg Array.size h.calls_eq,
    congrArg Prod.fst h.shown_eq⟩

theorem Alike.symm (h : Alike w v) : Alike v w :=
  ⟨h.ensemble_eq.symm, h.observers_eq.symm, h.handles_eq.symm, h.calls_eq.symm, h.events_eq.symm⟩

theorem Alike.trans (hfirst : Alike w v) (hlater : Alike v u) : Alike w u :=
  ⟨hlater.ensemble_eq.trans hfirst.ensemble_eq, hlater.observers_eq.trans hfirst.observers_eq,
    hlater.handles_eq.trans hfirst.handles_eq, hlater.calls_eq.trans hfirst.calls_eq,
    hlater.events_eq.trans hfirst.events_eq⟩

theorem Alike.both (h : Alike w v) {act : World → World} (hact : ∀ w, Alike w (act w)) :
    Alike (act w) (act v) :=
  (hact w).symm.trans (h.trans (hact v))

theorem alike_hangUp (w : World) : Alike w w.hangUp := by
  unfold hangUp
  split
  · exact ⟨rfl, rfl, rfl, rfl, rfl⟩
  · exact ⟨rfl, rfl, rfl, by simp, rfl⟩

theorem Alike.foldl (h : Alike w v) {act : World → Effect → World}
    (hact : ∀ {w v}, Alike w v → ∀ effect, Alike (act w effect) (act v effect))
    (effects : List Effect) : Alike (effects.foldl act w) (effects.foldl act v) := by
  induction effects generalizing w v with
  | nil => exact h
  | cons effect rest ih => exact ih (hact h effect)

theorem Alike.record (h : Alike w v) (effect : Effect) :
    Alike (w.record effect) (v.record effect) := by
  cases effect with
  | emit event =>
    exact ⟨h.ensemble_eq, h.observers_eq, h.handles_eq, h.calls_eq,
      congrArg (·.send event) h.events_eq⟩
  | answer call result =>
    have hanswer (w : World) : Alike w (w.answer call result) :=
      ⟨rfl, rfl, rfl, Array.size_modify, rfl⟩
    exact h.both hanswer
  | publish phase => exact ⟨h.ensemble_eq, h.observers_eq, h.handles_eq, h.calls_eq, h.events_eq⟩
  | _ => exact h.both fun w => (untouched_record w rfl rfl rfl).alike

theorem Alike.moved (h : Alike w v) (ensemble : Ensemble) :
    Alike { w with ensemble } { v with ensemble } :=
  ⟨rfl, h.observers_eq, h.handles_eq, h.calls_eq, h.events_eq⟩

theorem Alike.give (h : Alike w v) (command : Command) :
    Alike (w.give command) (v.give command) := by
  unfold World.give
  rw [h.ensemble_eq]
  cases w.ensemble.move (.submit command) with
  | none => exact h
  | some made =>
    exact ((h.moved made.1).foldl record made.2).both fun w => (untouched_alert w).alike

theorem Alike.follow (h : Alike w v) (effect : Effect) :
    Alike (w.follow effect) (v.follow effect) := by
  have hrecord := h.record effect
  cases effect with
  | observe observer payload =>
    obtain ⟨later, command, -, hreflex⟩ :=
      exists_reflex (w.record (.observe observer payload)) observer payload
    have hlater : Alike { w.record (.observe observer payload) with observers := later }
        { v.record (.observe observer payload) with observers := later } :=
      ⟨hrecord.ensemble_eq, rfl, hrecord.handles_eq, hrecord.calls_eq, hrecord.events_eq⟩
    simp only [World.follow, hreflex _ rfl, hreflex _ hrecord.observers_eq]
    cases command with
    | none => exact hlater
    | some command => exact hlater.give command
  | _ => exact hrecord

theorem Alike.tryMove (h : Alike w v) (move : Move) :
    Alike (w.tryMove move) (v.tryMove move) := by
  unfold World.tryMove perform
  rw [h.ensemble_eq]
  cases w.ensemble.move move with
  | none => exact h
  | some made =>
    have hfollowed := (h.moved made.1).foldl follow made.2
    exact (hfollowed.both alike_hangUp).both fun w => (untouched_alert w).alike

theorem Alike.issue (h : Alike w v) (kind : CallKind) : Alike (w.issue kind) (v.issue kind) := by
  have hpushed : Alike { w with calls := w.calls.push { kind } }
      { v with calls := v.calls.push { kind } } :=
    ⟨h.ensemble_eq, h.observers_eq, h.handles_eq, by simp [h.calls_eq], h.events_eq⟩
  have hlook (call : CallId) (w : World) :
      Alike w { w with calls := w.calls.modify call Call.look } :=
    ⟨rfl, rfl, rfl, Array.size_modify, rfl⟩
  unfold World.issue
  rw [h.calls_eq]
  cases kind <;> exact (hpushed.give _).both (hlook w.calls.size)

/-! ## The calls of a world -/

/-- The calls of a world are those of a run of all parties: each was given once under its number,
and nobody has got an answer that the manager did not give. The handle of the start is held. -/
structure Tally (settings : Settings) (moves : List Move) (effects : List Effect) (w : World) :
    Prop where
  run_eq : (ofSettings settings).run moves = some (w.ensemble, effects)
  held : w.handles.any id = true
  numbered : (((ofSettings settings).entered moves).filterMap Command.call?).Sublist
    (List.range w.calls.size)
  asked : ∀ call, .connect call ∈ (ofSettings settings).entered moves →
    ∃ c, w.calls[call]? = some c ∧ c.kind = .connect
  answered : w.ensemble.present = true → ∀ call c, w.calls[call]? = some c →
    c.answer.isSome = true → call ∈ Manager.answered effects

/-- The calls of a world are those of some run in which some things were done. While the effects of
a move are recorded one by one, these are all of them. -/
def Tallied (settings : Settings) (told : List Effect) (w : World) : Prop :=
  ∃ moves effects, told ⊆ effects ∧ Tally settings moves effects w

variable {settings : Settings} {moves : List Move} {effects told : List Effect}

theorem Tally.of_untouched (h : Tally settings moves effects w) (hsame : Untouched w v) :
    Tally settings moves effects v := by
  obtain ⟨hrun, hheld, hnumbered, hasked, hanswered⟩ := h
  rw [← hsame.ensemble_eq] at hrun hanswered
  rw [← hsame.handles_eq] at hheld
  rw [← hsame.calls_eq] at hnumbered hasked hanswered
  exact ⟨hrun, hheld, hnumbered, hasked, hanswered⟩

/-- A call may be changed, if the answer was given. -/
theorem Tally.modify (h : Tally settings moves effects w) {call : CallId} {change : Call → Call}
    (hkind : ∀ c, (change c).kind = c.kind)
    (hanswer : ∀ c, (change c).answer.isSome = true →
      c.answer.isSome = true ∨ call ∈ Manager.answered effects) :
    Tally settings moves effects { w with calls := w.calls.modify call change } where
  run_eq := h.run_eq
  held := h.held
  numbered := by simpa using h.numbered
  asked number hmem := by
    obtain ⟨c, hc, hconnect⟩ := h.asked number hmem
    by_cases hsame : call = number
    · exact ⟨change c, by simp [Array.getElem?_modify, hsame, hc], (hkind c).trans hconnect⟩
    · exact ⟨c, by simp [Array.getElem?_modify, hsame, hc], hconnect⟩
  answered present number c hc hsome := by
    have hearlier := h.answered present number
    by_cases hsame : call = number
    · subst hsame
      obtain ⟨before, hbefore, rfl⟩ : ∃ before, w.calls[call]? = some before ∧
          change before = c := by
        simpa [Array.getElem?_modify] using hc
      exact (hanswer before hsome).elim (hearlier before hbefore) id
    · have hbefore : w.calls[number]? = some c := by
        simpa [Array.getElem?_modify, hsame] using hc
      exact hearlier c hbefore hsome

theorem Tally.hangUp (h : Tally settings moves effects w) :
    Tally settings moves effects w.hangUp := by
  unfold World.hangUp
  split
  · exact h
  · rename_i gone
    refine ⟨h.run_eq, h.held, by simpa using h.numbered, fun call hmem => ?_, fun present => ?_⟩
    · obtain ⟨c, hc, hconnect⟩ := h.asked call hmem
      refine ⟨_, by rw [Array.getElem?_map, hc, Option.map_some], ?_⟩
      split <;> exact hconnect
    · exact absurd present gone

/-- An effect is recorded. Of the calls only the one that is answered changes. -/
theorem Tally.record (h : Tally settings moves effects w) {effect : Effect}
    (hmem : effect ∈ effects) : Tally settings moves effects (w.record effect) := by
  cases effect with
  | answer call result =>
    refine h.modify (fun c => ?_) fun c _ => .inr ?_
    · split <;> rfl
    · exact List.mem_map_of_mem (Effect.mem_answers.mpr hmem)
  | emit | publish => exact ⟨h.run_eq, h.held, h.numbered, h.asked, h.answered⟩
  | _ => exact h.of_untouched (untouched_record w rfl rfl rfl)

theorem Tally.records (h : Tally settings moves effects w) (hsub : told ⊆ effects) :
    Tally settings moves effects (told.foldl World.record w) := by
  induction told generalizing w with
  | nil => exact h
  | cons effect rest ih =>
    obtain ⟨hfirst, hrest⟩ := List.cons_subset.mp hsub
    exact ih (h.record hfirst) hrest

/-- The parties make a move. A command that enters the queue has a number that was free. -/
theorem Tally.moved (h : Tally settings moves effects w) {move : Move} {next : Ensemble}
    {later : List Effect} (hmove : w.ensemble.move move = some (next, later))
    (hnumbered : (((ofSettings settings).entered moves ++
      (w.ensemble.admitted move).toList).filterMap Command.call?).Sublist
        (List.range w.calls.size))
    (hasked : ∀ call, w.ensemble.admitted move = some (.connect call) →
      ∃ c, w.calls[call]? = some c ∧ c.kind = .connect) :
    Tally settings (moves ++ [move]) (effects ++ later) { w with ensemble := next } where
  run_eq := Ensemble.run_concat h.run_eq hmove
  held := h.held
  numbered := by rwa [entered_concat h.run_eq]
  asked call hmem := by
    rw [entered_concat h.run_eq, List.mem_append, Option.mem_toList] at hmem
    exact hmem.elim (h.asked call) (hasked call)
  answered present call c hc hsome := by
    rw [answered_append]
    exact List.mem_append_left _ (h.answered (present_of_move hmove present) call c hc hsome)

/-- A command is given. If it is answered, its number is that of a call. -/
theorem Tally.give (h : Tally settings moves effects w) {command : Command}
    (hnumbered : (((ofSettings settings).entered moves).filterMap Command.call? ++
      command.call?.toList).Sublist (List.range w.calls.size))
    (hasked : ∀ call, command = .connect call → ∃ c, w.calls[call]? = some c ∧ c.kind = .connect) :
    Tallied settings effects (w.give command) := by
  unfold World.give
  cases hmove : w.ensemble.move (.submit command) with
  | none => exact ⟨moves, effects, List.Subset.refl _, h⟩
  | some made =>
    obtain ⟨next, later⟩ := made
    refine ⟨moves ++ [.submit command], effects ++ later, List.subset_append_left .., ?_⟩
    refine Tally.of_untouched (Tally.records ?_ (List.subset_append_right ..)) (untouched_alert _)
    refine h.moved hmove ?_ fun call hadmitted => hasked call ?_
    · rw [List.filterMap_append]
      refine List.Sublist.trans (List.Sublist.append_left ?_ _) hnumbered
      simp only [admitted]
      split
      · cases hcall : command.call? <;> simp [hcall]
      · simp
    · simp only [admitted, Option.ite_none_right_eq_some, Option.some.injEq] at hadmitted
      exact hadmitted.2

theorem Tallied.mono (h : Tallied settings effects w) (hsub : told ⊆ effects) :
    Tallied settings told w := by
  obtain ⟨moves, later, hlater, htally⟩ := h
  exact ⟨moves, later, List.Subset.trans hsub hlater, htally⟩

theorem Tallied.give (h : Tallied settings told w) {command : Command}
    (unanswered : command.call? = none) : Tallied settings told (w.give command) := by
  obtain ⟨moves, effects, hsub, htally⟩ := h
  refine (htally.give ?_ ?_).mono hsub
  · simpa [unanswered] using htally.numbered
  · rintro call rfl
    simp [Command.call?] at unanswered

theorem Tallied.follow (h : Tallied settings told w) {effect : Effect} (hmem : effect ∈ told) :
    Tallied settings told (w.follow effect) := by
  obtain ⟨moves, effects, hsub, htally⟩ := h
  have hrecord := htally.record (hsub hmem)
  cases effect with
  | observe observer payload =>
    obtain ⟨later, command, unanswered, hreflex⟩ :=
      exists_reflex (w.record (.observe observer payload)) observer payload
    have hlater : Tallied settings told
        { w.record (.observe observer payload) with observers := later } :=
      ⟨moves, effects, hsub, hrecord.run_eq, hrecord.held, hrecord.numbered, hrecord.asked,
        hrecord.answered⟩
    simp only [World.follow, hreflex _ rfl]
    cases command with
    | none => exact hlater
    | some command => exact hlater.give unanswered
  | _ => exact ⟨moves, effects, hsub, hrecord⟩

theorem Tallied.followed (h : Tallied settings told w) (hsub : effects ⊆ told) :
    Tallied settings told (effects.foldl World.follow w) := by
  induction effects generalizing w with
  | nil => exact h
  | cons effect rest ih =>
    obtain ⟨hfirst, hrest⟩ := List.cons_subset.mp hsub
    exact ih (h.follow hfirst) hrest

theorem Tallied.tryMove (h : Tallied settings [] w) {move : Move}
    (unanswered : move.command?.bind Command.call? = none) :
    Tallied settings [] (w.tryMove move) := by
  obtain ⟨moves, effects, -, htally⟩ := h
  unfold World.tryMove perform
  cases hmove : w.ensemble.move move with
  | none => exact ⟨moves, effects, List.nil_subset _, htally⟩
  | some made =>
    obtain ⟨next, later⟩ := made
    have hnone := admitted_unanswered w.ensemble unanswered
    have hmoved : Tally settings (moves ++ [move]) (effects ++ later)
        { w with ensemble := next } := by
      refine htally.moved hmove ?_ fun call hadmitted => ?_
      · cases hadmitted : w.ensemble.admitted move with
        | none => simpa using htally.numbered
        | some command =>
          have hcall : command.call? = none := by simpa [hadmitted] using hnone
          simpa [hcall] using htally.numbered
      · simp [hadmitted, Command.call?] at hnone
    have htallied : Tallied settings later { w with ensemble := next } :=
      ⟨_, _, List.subset_append_right .., hmoved⟩
    obtain ⟨moves, effects, -, htally⟩ := htallied.followed (List.Subset.refl _)
    exact ⟨moves, effects, List.nil_subset _, htally.hangUp.of_untouched (untouched_alert _)⟩

/-- A caller asks for something. The call gets a number of its own. -/
theorem Tally.push (h : Tally settings moves effects w) (kind : CallKind) :
    Tally settings moves effects { w with calls := w.calls.push { kind } } where
  run_eq := h.run_eq
  held := h.held
  numbered := by
    rw [Array.size_push, List.range_succ]
    exact h.numbered.trans (List.sublist_append_left ..)
  asked call hmem := by
    obtain ⟨c, hc, hconnect⟩ := h.asked call hmem
    obtain ⟨hlt, -⟩ := Array.getElem?_eq_some_iff.mp hc
    exact ⟨c, by simpa [Array.getElem?_push, Nat.ne_of_lt hlt] using hc, hconnect⟩
  answered present call c hc hsome := by
    rw [Array.getElem?_push] at hc
    split at hc
    · obtain rfl := Option.some.inj hc
      simp at hsome
    · exact h.answered present call c hc hsome

theorem Tallied.issue (h : Tallied settings [] w) (kind : CallKind) :
    Tallied settings [] (w.issue kind) := by
  obtain ⟨moves, effects, -, htally⟩ := h
  have hgiven {command : Command} (hcall : command.call? = some w.calls.size)
      (hkind : ∀ call, command = .connect call → kind = .connect) :
      Tallied settings effects ({ w with calls := w.calls.push { kind } }.give command) := by
    refine (htally.push kind).give ?_ ?_
    · rw [hcall, Option.toList_some, Array.size_push, List.range_succ]
      exact htally.numbered.append_right _
    · rintro call rfl
      obtain rfl := Option.some.inj hcall
      exact ⟨{ kind }, Array.getElem?_push_size, hkind _ rfl⟩
  have hlooked {w : World} (h : Tallied settings effects w) (call : CallId) :
      Tallied settings [] { w with calls := w.calls.modify call Call.look } := by
    obtain ⟨moves, effects, -, htally⟩ := h
    exact ⟨moves, effects, List.nil_subset _, htally.modify (fun _ => rfl) fun _ => .inl⟩
  cases kind with
  | connect => exact hlooked (hgiven rfl fun _ _ => rfl) _
  | close => exact hlooked (hgiven rfl fun _ h => by cases h) _

/-- As long as a handle is held, nothing else comes of it that a caller goes away. -/
theorem cancel_snd (held : w.handles.any id = true) (call : CallId) :
    (w.cancel call).2 = w ∨ (w.cancel call).2 =
      { w with calls := w.calls.modify call fun c => { c with cancelled := true } } := by
  unfold cancel
  split
  · right
    simp [detachIfUnheld, holdsHandle, callerHoldsHandle, held]
  · exact .inl rfl

theorem alike_cancel (held : w.handles.any id = true) (call : CallId) :
    Alike w (w.cancel call).2 := by
  obtain hsame | hgone := cancel_snd held call
  · rw [hsame]
    exact ⟨rfl, rfl, rfl, rfl, rfl⟩
  · rw [hgone]
    exact ⟨rfl, rfl, rfl, Array.size_modify, rfl⟩

theorem Tallied.cancel (h : Tallied settings [] w) (call : CallId) :
    Tallied settings [] (w.cancel call).2 := by
  obtain ⟨moves, effects, -, htally⟩ := h
  refine ⟨moves, effects, List.nil_subset _, ?_⟩
  obtain hsame | hgone := cancel_snd htally.held call
  · rwa [hsame]
  · rw [hgone]
    exact htally.modify (fun _ => rfl) fun _ => .inl

theorem Tallied.undergo (h : Tallied settings [] w) (happening : Happening) :
    Tallied settings [] (w.undergo happening) := by
  cases happening with
  | asks kind => exact h.issue kind
  | leaves call => exact h.cancel call
  | moves move unanswered => exact h.tryMove unanswered

theorem Tallied.history (h : Tallied settings [] w) (happenings : List Happening) :
    Tallied settings [] (w.history happenings) := by
  induction happenings generalizing w with
  | nil => exact h
  | cons happening rest ih => exact ih (h.undergo happening)

theorem tallied_start (settings : Settings) (script : List Reply) :
    Tallied settings [] (start settings script) :=
  ⟨[], [], List.nil_subset _, rfl, rfl, List.nil_sublist _, by simp [entered], by simp [start]⟩

/-- Who goes away makes no difference to the others. -/
theorem Alike.history (h : Alike w v) (htally : Tallied settings [] w)
    (happenings : List Happening) :
    Alike (w.history happenings) (v.history (happenings.filter Happening.stays)) := by
  induction happenings generalizing w v with
  | nil => exact h
  | cons happening rest ih =>
    have hrest {v' : World} (hnext : Alike (w.undergo happening) v') :=
      ih hnext (htally.undergo happening)
    cases happening with
    | asks kind => exact hrest (h.issue kind)
    | moves move => exact hrest (h.tryMove move)
    | leaves call =>
      -- only one of the two worlds changes
      obtain ⟨_, _, _, htally⟩ := htally
      exact hrest ((alike_cancel htally.held call).symm.trans h)

/-! ## For whom an attempt is made again -/

/-- An attempt is made again only for somebody who is still there. -/
def RetriesForPresent (w : World) : Prop :=
  ∀ move next effects generation, w.ensemble.move move = some (next, effects) →
    .emit (.connecting generation .retry) ∈ effects →
      ∃ call ∈ next.manager.waiting, ∃ c, w.calls[call]? = some c ∧ c.cancelled = false

/-- One caller asks for the connection and another joins the attempt, who goes away before the
attempt fails. -/
def desertedHistory : List Happening :=
  [.asks .connect, .moves (.handle []) rfl, .asks .connect, .moves (.handle []) rfl,
    .moves (.callOpen false) rfl, .leaves 1, .moves (.answerOpen 0 (.error .connectTimeout)) rfl]

/-- The attempt is made again, though nobody is left who waits for it. -/
theorem retry_for_absent : ¬((start {} []).history desertedHistory).RetriesForPresent := by
  intro hpresent
  obtain ⟨next, effects, hmove, hretry, hwaiting⟩ : ∃ next effects,
      ((start {} []).history desertedHistory).ensemble.move (.handle []) = some (next, effects) ∧
        .connecting 2 .retry ∈ Effect.events effects ∧ next.manager.waiting = [1] :=
    ⟨_, _, rfl, by decide, rfl⟩
  obtain ⟨call, hwaits, c, hc, hstays⟩ :=
    hpresent _ next effects 2 hmove (Effect.mem_events.mp hretry)
  rw [hwaiting, List.mem_singleton] at hwaits
  subst hwaits
  have hgone : (((start {} []).history desertedHistory).calls[1]?).map (·.cancelled) =
      some true := rfl
  simp [hc, hstays] at hgone

/-- The callers who have asked for the connection since the attempt in flight was started, by the
given moves. Their calls are not answered yet, whether they are still there or not. -/
structure Joined (settings : Settings) (moves : List Move) (w : World) (calls : List CallId) :
    Prop where
  since : ∃ before start later,
    (ofSettings settings).manager.Origin ((ofSettings settings).fed moves) before start later ∧
      calls = ((((ofSettings settings).manager.run before).1.step start).1.handled
        later).filterMap Command.caller?
  unanswered : ∀ call ∈ calls, ∃ c, w.calls[call]? = some c ∧ c.kind = .connect ∧ c.answer = none

/-- Who waits in the books of a manager waits in the world, or has gone away. -/
theorem Tally.unanswered (h : Tally settings moves effects w) (present : w.ensemble.present = true)
    (finished : ¬w.ensemble.manager.Busy) {call : CallId}
    (hasked : .connect call ∈
      (ofSettings settings).manager.handled ((ofSettings settings).fed moves))
    (waits : call ∈ w.ensemble.manager.waiting) :
    ∃ c, w.calls[call]? = some c ∧ c.kind = .connect ∧ c.answer = none := by
  obtain ⟨hmanager, hcommands⟩ := feeds_of_run h.run_eq
  have hentered : ((ofSettings settings).manager.handled ((ofSettings settings).fed moves)).Sublist
      ((ofSettings settings).entered moves) := by
    rw [show (ofSettings settings).entered moves = _ from hcommands.symm]
    exact List.sublist_append_left ..
  have hunique := List.nodup_range.sublist ((hentered.filterMap Command.call?).trans h.numbered)
  obtain ⟨c, hc, hconnect⟩ := h.asked call (hentered.subset hasked)
  refine ⟨c, hc, hconnect, ?_⟩
  -- every call is handled once, so nobody waits who was answered
  by_contra hanswer
  have hanswered := h.answered present call c hc (Option.isSome_iff_ne_none.mpr hanswer)
  rw [hmanager] at finished waits
  rw [Manager.answered, answers_of_run h.run_eq present] at hanswered
  exact (unanswered_iff_waits settings.endpoint.url hunique hasked finished).mpr waits hanswered

theorem Tally.joined (h : Tally settings moves effects w) (present : w.ensemble.present = true)
    {input : Input} {cause : Failure} (hfails : w.ensemble.manager.Fails input cause) :
    Joined settings moves w (w.ensemble.manager.step input).1.waiting := by
  have hnew : (ofSettings settings).manager.Sound := sound_new settings.endpoint.url
  have hmanager := (feeds_of_run h.run_eq).1
  have hfailed := hfails
  -- where the attempt comes from is known of a manager at the end of a run
  rw [hmanager] at hfailed
  obtain ⟨before, start, later, horigin⟩ := hnew.exists_origin (by simp [ofSettings]) hfailed.2.1
  have hparting := horigin.parting hnew hfailed
  rw [← hmanager] at hparting
  refine ⟨⟨before, start, later, horigin, hparting.waiting_next⟩, ?_⟩
  intro call hmem
  have hwaits : call ∈ w.ensemble.manager.waiting := by
    rw [hparting.waiting_eq, ← hparting.waiting_next]
    exact List.mem_append_right _ hmem
  have finished : ¬w.ensemble.manager.Busy := fun busy => busy.1 hfails.1
  refine h.unanswered present finished ?_ hwaits
  rw [hparting.waiting_next] at hmem
  obtain ⟨command, hcommand, hcaller⟩ := List.mem_filterMap.mp hmem
  obtain rfl : command = .connect call := by
    cases command <;> simp_all [Command.caller?]
  rw [horigin.inputs_eq, handled_append]
  exact List.mem_append_right _ (List.mem_append_right _ hcommand)

/-- **For whom an attempt is made again.** An attempt is made again when the one in flight fails,
exactly if somebody is carried over. Carried over is who has asked for the connection since the
failed attempt was started, in the run that the calls of the world are those of, and all of them are
without an answer. Whether they are still there is of no account: the parties go on as if nobody had
gone away, and the same events are published. -/
theorem retry_for_joined (settings : Settings) (script : List Reply)
    (happenings : List Happening) :
    let w := (start settings script).history happenings
    let stayed := (start settings script).history (happenings.filter Happening.stays)
    w.ensemble = stayed.ensemble ∧ w.events = stayed.events ∧
      ∃ moves effects, Tally settings moves effects w ∧
        ∀ move next later, w.ensemble.move move = some (next, later) →
          ((∃ generation, .emit (.connecting generation .retry) ∈ later) ↔
            w.ensemble.FailsBy move ∧ next.manager.waiting ≠ []) ∧
          (w.ensemble.FailsBy move → Joined settings moves w next.manager.waiting) := by
  intro w stayed
  have hstart := tallied_start settings script
  have halike : Alike w stayed := Alike.history ⟨rfl, rfl, rfl, rfl, rfl⟩ hstart happenings
  obtain ⟨moves, effects, -, htally⟩ := hstart.history happenings
  refine ⟨halike.ensemble_eq.symm, halike.events_eq.symm, moves, effects, htally, ?_⟩
  intro move next later hmove
  have hmoved := moved hmove
  refine ⟨hmoved.retry_iff (sound_of_run htally.run_eq), ?_⟩
  rintro ⟨input, cause, hinput, hfails⟩
  obtain ⟨before, other, hother, takes, hfed⟩ | ⟨unseen, -⟩ := hmoved.takes_or_elsewhere
  · obtain rfl : next = (before.feed other).1 := congrArg Prod.fst hfed
    obtain rfl : other = input := Option.some.inj (hother.symm.trans hinput)
    rw [feed_manager, takes.manager_eq]
    exact htally.joined takes.present hfails
  · simp [inputOf_of_unseen unseen] at hinput

/-- The attempt that is made again for nobody is made again for a caller who had joined it. -/
theorem retry_for_joined_deserted :
    let w := (start {} []).history desertedHistory
    let stayed := (start {} []).history (desertedHistory.filter Happening.stays)
    ∃ moves effects next later, Tally {} moves effects w ∧
      w.ensemble.move (.handle []) = some (next, later) ∧
      w.ensemble = stayed.ensemble ∧ w.ensemble.FailsBy (.handle []) ∧
      (∃ generation, .emit (.connecting generation .retry) ∈ later) ∧ Joined {} moves w [1] := by
  intro w stayed
  obtain ⟨next, later, hmove, hwaiting⟩ : ∃ next later,
      w.ensemble.move (.handle []) = some (next, later) ∧ next.manager.waiting = [1] :=
    ⟨_, _, rfl, rfl⟩
  obtain ⟨hsame, -, moves, effects, htally, hretries⟩ := retry_for_joined {} [] desertedHistory
  obtain ⟨hretry, hjoined⟩ := hretries (.handle []) next later hmove
  have hfails : w.ensemble.FailsBy (.handle []) :=
    ⟨.attemptFinished 1 (.error .connectTimeout), .connectTimeout, rfl, rfl, rfl, rfl⟩
  refine ⟨moves, effects, next, later, htally, hmove, hsame, hfails,
    hretry.mpr ⟨hfails, by simp [hwaiting]⟩, ?_⟩
  rw [← hwaiting]
  exact hjoined hfails

end World

end Scenario

end PersistentLink
