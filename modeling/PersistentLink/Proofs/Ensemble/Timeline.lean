import PersistentLink.Proofs.Ensemble.Channel
import PersistentLink.Proofs.Ensemble.Ownership

/-!
# What is done at what time

The clock stands at some time before each move of a run. So whatever a run does, or has the manager
handle, has a time, and limits can be compared with what they count from.

## Main definitions

- `Ensemble.along`: what a view of single moves shows in the course of a run
- `Ensemble.timeline`, `Ensemble.hearings`: effects and commands with their times
- `Ensemble.lastTime`: when something of a kind was done last

## Main results

- `Ensemble.run_append`: runs can be put together
- `Ensemble.run_induction`: what holds at the start and is kept by every move holds after a run
- `Ensemble.Moved.takes_or_elsewhere`: a move has the manager handle an input, or goes past it
- `Ensemble.Moved.of_mem_attempts`: where an attempt in flight comes from
- `Ensemble.closesInTime_of_run`: a close under way has a limit that counts from its beginning
-/

namespace PersistentLink

namespace Effect

/-- Whether the closing of a writer begins. -/
def isClose : Effect → Bool
  | close _ => true
  | _ => false

/-- Whether an attempt is announced. -/
def isAnnouncement : Effect → Bool
  | emit (.connecting ..) => true
  | _ => false

end Effect

/-- Whether the manager handles something by a move. -/
def Move.isSeen : Move → Bool
  | handle _ | written _ | closed _ | closeExpired => true
  | _ => false

namespace Ensemble

open Manager

variable {start e mid last next : Ensemble} {moves : List Move} {move : Move}
  {effects first later : List Effect}

/-! ## Runs, move by move -/

theorem exists_of_run_concat (hrun : e.run (moves ++ [move]) = some (last, effects)) :
    ∃ mid first later, e.run moves = some (mid, first) ∧ mid.move move = some (last, later) ∧
      effects = first ++ later := by
  induction moves generalizing e effects with
  | nil =>
    obtain ⟨next, first, later, hmove, hrest, rfl⟩ := exists_of_run_cons hrun
    obtain ⟨rfl, rfl⟩ := Prod.mk.inj (Option.some.inj hrest)
    exact ⟨e, [], first, rfl, hmove, by simp⟩
  | cons head rest ih =>
    obtain ⟨next, made, others, hhead, hrest, rfl⟩ := exists_of_run_cons hrun
    obtain ⟨mid, first, later, hmid, hmove, rfl⟩ := ih hrest
    refine ⟨mid, made ++ first, later, ?_, hmove, (List.append_assoc ..).symm⟩
    simp [run, hhead, hmid]

theorem run_append {rest : List Move} (hrun : e.run moves = some (mid, first))
    (hrest : mid.run rest = some (last, later)) :
    e.run (moves ++ rest) = some (last, first ++ later) := by
  induction moves generalizing e first with
  | nil =>
    obtain ⟨rfl, rfl⟩ := Prod.mk.inj (Option.some.inj hrun)
    exact hrest
  | cons head tail ih =>
    obtain ⟨other, made, others, hhead, htail, rfl⟩ := exists_of_run_cons hrun
    simp [run, hhead, ih htail]

theorem run_concat (hrun : e.run moves = some (mid, first))
    (hmove : mid.move move = some (next, later)) :
    e.run (moves ++ [move]) = some (next, first ++ later) :=
  run_append hrun (by simp [run, hmove])

/-- What holds at the start and is kept by every move holds after a run. -/
theorem run_induction {motive : List Move → Ensemble → Prop} (nil : motive [] start)
    (concat : ∀ {moves mid first move next later}, start.run moves = some (mid, first) →
      motive moves mid → mid.move move = some (next, later) → motive (moves ++ [move]) next)
    (hrun : start.run moves = some (last, effects)) : motive moves last := by
  induction moves using List.reverseRecOn generalizing last effects with
  | nil =>
    obtain ⟨rfl, -⟩ := Prod.mk.inj (Option.some.inj hrun)
    exact nil
  | append_singleton moves move ih =>
    obtain ⟨mid, first, later, hmoves, hmove, -⟩ := exists_of_run_concat hrun
    exact concat hmoves (ih hmoves) hmove

/-- What a view of single moves shows in the course of a run. -/
def along {α : Type} (view : Ensemble → Move → List α) (e : Ensemble) : List Move → List α
  | [] => []
  | move :: rest =>
    view e move ++
      match e.move move with
      | some (next, _) => next.along view rest
      | none => []

theorem along_concat {α : Type} (view : Ensemble → Move → List α)
    (hrun : e.run moves = some (mid, first)) (move : Move) :
    e.along view (moves ++ [move]) = e.along view moves ++ view mid move := by
  induction moves generalizing e first with
  | nil =>
    obtain ⟨rfl, -⟩ := Prod.mk.inj (Option.some.inj hrun)
    cases hmove : e.move move <;> simp [along, hmove]
  | cons head rest ih =>
    obtain ⟨next, made, later, hhead, hrest, -⟩ := exists_of_run_cons hrun
    simp only [List.cons_append, along, hhead, ih hrest, List.append_assoc]

/-- What is collected in the course of a run is what a view of single moves shows. -/
theorem eq_along {α : Type} {view : Ensemble → Move → List α}
    {collect : Ensemble → List Move → List α} (nil : ∀ e, collect e [] = [])
    (cons : ∀ e move rest, collect e (move :: rest) = view e move ++
      match e.move move with
      | some (next, _) => collect next rest
      | none => []) (e : Ensemble) (moves : List Move) :
    collect e moves = e.along view moves := by
  induction moves generalizing e with
  | nil => exact nil e
  | cons move rest ih =>
    rw [cons, along]
    cases e.move move with
    | none => rfl
    | some made => exact congrArg _ (ih made.1)

theorem fed_eq_along (e : Ensemble) (moves : List Move) :
    e.fed moves = e.along (fun e move => (e.inputOf move).toList) moves :=
  eq_along (fun _ => rfl) (fun _ _ _ => rfl) e moves

theorem entered_eq_along (e : Ensemble) (moves : List Move) :
    e.entered moves = e.along (fun e move => (e.admitted move).toList) moves :=
  eq_along (fun _ => rfl) (fun _ _ _ => rfl) e moves

/-- What is done in a run, each effect with its time. -/
def timeline : Ensemble → List Move → List (Nat × Effect) :=
  along fun e move =>
    match e.move move with
    | some (_, effects) => effects.map (e.clock, ·)
    | none => []

/-- The commands that are handled in a run, each with its time. -/
def hearings : Ensemble → List Move → List (Nat × Command) :=
  along fun e move => ((e.inputOf move).bind e.manager.heard).toList.map (e.clock, ·)

theorem timeline_concat (hrun : e.run moves = some (mid, first))
    (hmove : mid.move move = some (next, later)) :
    e.timeline (moves ++ [move]) = e.timeline moves ++ later.map (mid.clock, ·) := by
  have hconcat := along_concat (fun e move =>
    match e.move move with
    | some (_, effects) => effects.map (e.clock, ·)
    | none => []) hrun move
  rw [hmove] at hconcat
  exact hconcat

theorem fed_concat (hrun : e.run moves = some (mid, first)) (move : Move) :
    e.fed (moves ++ [move]) = e.fed moves ++ (mid.inputOf move).toList := by
  rw [fed_eq_along, fed_eq_along, along_concat _ hrun]

theorem entered_concat (hrun : e.run moves = some (mid, first)) (move : Move) :
    e.entered (moves ++ [move]) = e.entered moves ++ (mid.admitted move).toList := by
  rw [entered_eq_along, entered_eq_along, along_concat _ hrun]

/-- The commands with their times are the commands that the manager handles. -/
theorem map_snd_hearings (hrun : e.run moves = some (mid, first)) :
    (e.hearings moves).map Prod.snd = e.manager.handled (e.fed moves) := by
  induction moves generalizing e first with
  | nil => rfl
  | cons move rest ih =>
    obtain ⟨next, made, later, hmove, hrest, -⟩ := exists_of_run_cons hrun
    have hfeeds := (feeds_of_move hmove).manager_eq
    have hnow : e.manager.handled (e.inputOf move).toList =
        ((e.inputOf move).bind e.manager.heard).toList := by
      cases e.inputOf move <;> simp [handled]
    have hlater : (next.hearings rest).map Prod.snd = next.manager.handled (next.fed rest) :=
      ih hrest
    simp only [hearings] at hlater ⊢
    simp only [along, fed, hmove, List.map_append, hlater, handled_append, hnow, ← hfeeds,
      List.map_map]
    congr 1
    exact List.map_id _

/-! ## The last time -/

/-- When something of a kind was done last. -/
def lastTime (kind : Effect → Bool) (past : List (Nat × Effect)) : Option Nat :=
  (past.filter (kind ·.2)).getLast?.map (·.1)

variable {kind : Effect → Bool} {past : List (Nat × Effect)} {clock : Nat}

theorem lastTime_of_mem {effect : Effect} (hmem : effect ∈ effects) (hkind : kind effect = true) :
    lastTime kind (past ++ effects.map (clock, ·)) = some clock := by
  have hnow : (effects.map (clock, ·)).filter (kind ·.2) = (effects.filter kind).map (clock, ·) :=
    List.filter_map
  obtain ⟨before, final, hfinal⟩ : ∃ before final, effects.filter kind = before ++ [final] := by
    have hne := List.ne_nil_of_mem (List.mem_filter.mpr ⟨hmem, hkind⟩)
    exact ⟨_, _, (List.dropLast_append_getLast hne).symm⟩
  simp [lastTime, hnow, hfinal]

theorem lastTime_of_forall (h : ∀ effect ∈ effects, kind effect = false) :
    lastTime kind (past ++ effects.map (clock, ·)) = lastTime kind past := by
  have hnow : (effects.map (clock, ·)).filter (kind ·.2) = [] := by
    simpa [List.filter_eq_nil_iff] using h
  rw [lastTime, List.filter_append, hnow, List.append_nil, lastTime]

/-! ## Moves that the manager sees, and others -/

/-- An input is taken from those that wait, or is the outcome that the manager waits for. -/
structure Takes (e before : Ensemble) (input : Input) : Prop where
  present : e.present = true
  fits : e.manager.fits input = true
  manager_eq : before.manager = e.manager
  limit_eq : before.limit = e.limit
  attempts_eq : before.attempts = e.attempts
  clock_eq : before.clock = e.clock
  inbox_eq : (∃ message panicking, input = message.toInput panicking ∧
      e.inbox = message :: before.inbox) ∨
    before.inbox = e.inbox ∧ ∀ generation result, input ≠ .attemptFinished generation result

/-- The manager has no part in a move. -/
structure Elsewhere (e next : Ensemble) (effects : List Effect) : Prop where
  manager_eq : next.manager = e.manager
  limit_eq : next.limit = e.limit
  closeDeadline_eq : next.closeDeadline = e.closeDeadline
  clock_le : e.clock ≤ next.clock
  present_of_present : next.present = true → e.present = true
  /-- callers may be refused, and tasks may log something -/
  quiet : ∀ effect ∈ effects,
    (∃ record, effect = .log record) ∨ ∃ call result, effect = .answer call result

theorem fits_of_isWriting (writing : e.isWriting = true) (result : Except Failure Unit) :
    e.present = true ∧ e.manager.fits (.written result) = true := by
  cases hactivity : e.manager.activity <;> simp_all [isWriting, fits]

theorem takes_of_isClosing (closing : e.isClosing = true) (outcome : CloseOutcome) :
    e.Takes { e with closeDeadline := none } (.closed outcome) := by
  have hclosing : e.present = true ∧ e.manager.fits (.closed outcome) = true := by
    cases hactivity : e.manager.activity <;> simp_all [isClosing, fits]
  exact ⟨hclosing.1, hclosing.2, rfl, rfl, rfl, rfl, .inr ⟨rfl, by simp⟩⟩

theorem elsewhere_endAttempt (number : Nat) (attempt : Attempt) (result : Except Failure LinkId) :
    e.Elsewhere ((e.withoutAttempt number).endAttempt attempt result).1
      ((e.withoutAttempt number).endAttempt attempt result).2 := by
  rw [endAttempt, post]
  split <;> exact ⟨rfl, rfl, rfl, Nat.le_refl _, id, by simp⟩

theorem inputOf_of_unseen (unseen : move.isSeen = false) : e.inputOf move = none := by
  cases move with
  | handle | written | closed | closeExpired => simp [Move.isSeen] at unseen
  | _ => rfl

/-- The manager's reaction changes neither the clock nor the limit of attempts. -/
theorem feed_clock_limit (e : Ensemble) (input : Input) :
    (e.feed input).1.clock = e.clock ∧ (e.feed input).1.limit = e.limit := by
  have hframed := framed_foldl_absorb { e with manager := (e.manager.step input).1 }
    (e.manager.step input).2
  exact ⟨hframed.clock_eq, hframed.limit_eq⟩

/-- A move has the manager handle an input, or goes past it. -/
theorem Moved.takes_or_elsewhere {reaction : Ensemble × List Effect}
    (moved : e.Moved move reaction) :
    (∃ before input, e.inputOf move = some input ∧ e.Takes before input ∧
      reaction = before.feed input) ∨
      move.isSeen = false ∧ e.Elsewhere reaction.1 reaction.2 := by
  cases moved with
  | refused command =>
    exact .inr ⟨rfl, rfl, rfl, rfl, Nat.le_refl _, id, by cases command <;> simp [refuse]⟩
  | submitted | detached | called | completed | vanished | fastened =>
    exact .inr ⟨rfl, rfl, rfl, rfl, Nat.le_refl _, id, by simp⟩
  | collapsed => exact .inr ⟨rfl, rfl, rfl, rfl, Nat.le_refl _, by simp, by simp⟩
  | elapsed span => exact .inr ⟨rfl, rfl, rfl, rfl, Nat.le_add_right _ _, id, by simp⟩
  | messaged panicking message rest present ready first =>
    refine .inl ⟨{ e with inbox := rest }, message.toInput panicking, ?_,
      ⟨present, ?_, rfl, rfl, rfl, rfl, .inl ⟨message, panicking, rfl, first⟩⟩, rfl⟩
    · simp [inputOf, nextInput, first]
    · cases message <;> simp [Message.toInput, fits, ready]
  | commanded panicking command rest present ready silent first =>
    refine .inl ⟨{ e with commands := rest }, .command command, ?_,
      ⟨present, by simp [fits, ready], rfl, rfl, rfl, rfl, .inr ⟨rfl, by simp⟩⟩, rfl⟩
    simp [inputOf, nextInput, silent, first]
  | deserted panicking present ready silent unasked unattached =>
    refine .inl ⟨e, .commandsEnded, ?_,
      ⟨present, by simp [fits, ready], rfl, rfl, rfl, rfl, .inr ⟨rfl, by simp⟩⟩, rfl⟩
    simp [inputOf, nextInput, silent, unasked, unattached]
  | wrote result writing =>
    obtain ⟨present, hfits⟩ := fits_of_isWriting writing result
    exact .inl ⟨e, .written result, rfl,
      ⟨present, hfits, rfl, rfl, rfl, rfl, .inr ⟨rfl, by simp⟩⟩, rfl⟩
  | closed result closing =>
    cases result <;>
      exact .inl ⟨_, _, rfl, takes_of_isClosing closing _, rfl⟩
  | expired closing => exact .inl ⟨_, _, rfl, takes_of_isClosing closing _, rfl⟩
  | answered number result attempt | reported number result attempt =>
    exact .inr ⟨rfl, elsewhere_endAttempt number attempt result⟩
  | timedOut number attempt => exact .inr ⟨rfl, elsewhere_endAttempt number attempt _⟩
  | passed link event task =>
    refine .inr ⟨rfl, rfl, rfl, rfl, Nat.le_refl _, id, ?_⟩
    simp [passOn]

/-- The generation never goes back. -/
theorem Moved.generation_le {reaction : Ensemble × List Effect} (moved : e.Moved move reaction)
    (hsound : e.manager.Sound) : e.manager.generation ≤ reaction.1.manager.generation := by
  obtain ⟨before, input, -, takes, rfl⟩ | ⟨-, elsewhere⟩ := moved.takes_or_elsewhere
  · rw [feed_manager, takes.manager_eq]
    obtain hlt | ⟨heq, -⟩ := (hsound.turn input).undecided
    · exact Nat.le_of_lt hlt
    · exact Nat.le_of_eq heq
  · exact Nat.le_of_eq (congrArg Manager.generation elsewhere.manager_eq.symm)

/-- What the tasks of attempts do by themselves. -/
inductive Evolves (e : Ensemble) (earlier : Attempt) : Move → Attempt → Prop
  | called (pinned : Bool) (hfirst : e.attempts.find? (·.number.isNone) = some earlier) :
    Evolves e earlier (.callOpen pinned)
      { earlier with
        number := some e.opens, deadline := e.limit.map (e.clock + ·), pinned }
  | completed (number : Nat) (result : Except Failure LinkId) :
    Evolves e earlier (.completeOpen number result) (earlier.complete number result)

/-- An attempt in flight was so before, or has evolved since, or the manager has just started it. -/
theorem Moved.of_mem_attempts {reaction : Ensemble × List Effect} (moved : e.Moved move reaction)
    (hsound : e.manager.Sound) {attempt : Attempt} (hmem : attempt ∈ reaction.1.attempts) :
    (∃ earlier ∈ e.attempts, attempt = earlier ∨ e.Evolves earlier move attempt) ∨
      e.manager.generation < attempt.generation ∧
        attempt = { generation := attempt.generation } := by
  obtain ⟨before, input, -, takes, rfl⟩ | ⟨unseen, -⟩ := moved.takes_or_elsewhere
  · rw [feed_attempts, takes.manager_eq] at hmem
    obtain hearlier | ⟨generation, hstarted, rfl⟩ := of_mem_attempts_foldl_absorb hmem
    · exact .inl ⟨attempt, takes.attempts_eq ▸ hearlier, .inl rfl⟩
    · -- an attempt that starts has the next generation
      obtain hnone | ⟨hone, -⟩ := (hsound.turn input).attempts_eq
      · simp [hnone] at hstarted
      · rw [hone, List.mem_singleton] at hstarted
        exact .inr ⟨hstarted ▸ Nat.lt_succ_self _, rfl⟩
  · have aside (hearlier : attempt ∈ e.attempts) :
        ∃ earlier ∈ e.attempts, attempt = earlier ∨ e.Evolves earlier move attempt :=
      ⟨attempt, hearlier, .inl rfl⟩
    left
    cases moved with
    | refused | submitted | detached | elapsed | collapsed | fastened | passed => exact aside hmem
    | called pinned before first after uncalled called hattempts =>
      have hfirst : e.attempts.find? (·.number.isNone) = some first := by
        have hbefore : before.find? (·.number.isNone) = none := by simpa using called
        rw [hattempts, List.find?_append, hbefore]
        simp [uncalled]
      obtain hbefore | hlater := List.mem_append.mp hmem
      · exact aside (by simp [hattempts, hbefore])
      · obtain rfl | hafter := List.mem_cons.mp hlater
        · exact ⟨first, by simp [hattempts], .inr (.called pinned hfirst)⟩
        · exact aside (by simp [hattempts, hafter])
    | answered number result first | reported number result first | timedOut number first =>
      rw [endAttempt, post] at hmem
      split at hmem <;> exact aside (List.mem_filter.mp hmem).1
    | completed number result =>
      obtain ⟨earlier, hearlier, rfl⟩ := List.mem_map.mp hmem
      exact ⟨earlier, hearlier, .inr (.completed number result)⟩
    | vanished => exact aside (List.mem_filter.mp hmem).1
    | messaged | commanded | deserted | wrote | closed | expired => simp [Move.isSeen] at unseen

theorem Evolves.generation_eq {earlier attempt : Attempt} (h : e.Evolves earlier move attempt) :
    attempt.generation = earlier.generation := by
  cases h with
  | called => rfl
  | completed number result => exact earlier.complete_generation result

/-! ## The limit of a close -/

/-- A step after which a writer is being closed has begun to close it. -/
theorem close_of_isReleasing {m : Manager} {input : Input} {reaction : Reaction}
    (turn : Turn m input reaction) (hfits : m.fits input = true)
    (releasing : reaction.1.isReleasing = true) : ∃ link, .close link ∈ reaction.2 := by
  cases turn with
  | dismissing order link => exact ⟨link, by simp⟩
  | staleSuccess _ link | peerClosed _ _ link | writeLost _ _ link | drainLost _ _ _ link =>
    exact ⟨link, by simp⟩
  | dismissed order | released generation rest =>
    exact absurd releasing (by simp [isReleasing_resume])
  | ignored _ stray => exact absurd (stray.symm.trans hfits) (by decide)
  | _ => simp_all [isReleasing, beginAttempt]

/-- A close that begins has its limit set from now. -/
theorem closeDeadline_feed (hsound : e.manager.Sound) {input : Input}
    (hfits : e.manager.fits input = true)
    (releasing : (e.manager.step input).1.isReleasing = true) :
    (∃ link, .close link ∈ (e.manager.step input).2) ∧
      (e.feed input).1.closeDeadline = some (e.clock + closeGrace) := by
  obtain ⟨link, hmem⟩ := close_of_isReleasing (hsound.turn input) hfits releasing
  have hclosings : Effect.closings (e.manager.step input).2 ≠ [] :=
    List.ne_nil_of_mem (List.mem_filterMap.mpr ⟨_, hmem, rfl⟩)
  have hdeadline := closeDeadline_foldl_absorb
    { e with manager := (e.manager.step input).1 } (e.manager.step input).2
  rw [if_neg hclosings] at hdeadline
  exact ⟨⟨link, hmem⟩, hdeadline⟩

/-- A close under way has a limit, which counts from when a writer was last begun to be closed. -/
def ClosesInTime (past : List (Nat × Effect)) (e : Ensemble) : Prop :=
  e.manager.isReleasing = true →
    ∃ since ≤ e.clock, lastTime Effect.isClose past = some since ∧
      e.closeDeadline = some (since + closeGrace)

theorem ClosesInTime.after_move (h : ClosesInTime past e) (hsound : e.manager.Sound)
    {reaction : Ensemble × List Effect} (moved : e.Moved move reaction) :
    ClosesInTime (past ++ reaction.2.map (e.clock, ·)) reaction.1 := by
  intro releasing
  obtain ⟨before, input, -, takes, rfl⟩ | ⟨-, elsewhere⟩ := moved.takes_or_elsewhere
  · rw [feed_manager] at releasing
    have hbefore : before.manager.Sound := takes.manager_eq ▸ hsound
    obtain ⟨⟨link, hmem⟩, hdeadline⟩ :=
      closeDeadline_feed hbefore (takes.manager_eq ▸ takes.fits) releasing
    have hclock := (feed_clock_limit before input).1
    rw [← takes.clock_eq]
    exact ⟨before.clock, Nat.le_of_eq hclock.symm, lastTime_of_mem hmem rfl, hdeadline⟩
  · rw [elsewhere.manager_eq] at releasing
    obtain ⟨since, hle, hlast, hlimit⟩ := h releasing
    refine ⟨since, Nat.le_trans hle elsewhere.clock_le, ?_,
      elsewhere.closeDeadline_eq.trans hlimit⟩
    rw [lastTime_of_forall, hlast]
    intro effect hmem
    obtain ⟨record, rfl⟩ | ⟨call, result, rfl⟩ := elsewhere.quiet effect hmem <;> rfl

theorem sound_of_run {settings : Settings}
    (hrun : (ofSettings settings).run moves = some (last, effects)) : last.manager.Sound := by
  rw [(feeds_of_run hrun).1]
  exact (sound_new settings.endpoint.url).run _

/-- A manager that has ended is gone. -/
theorem not_ended_of_run {settings : Settings}
    (hrun : (ofSettings settings).run moves = some (last, effects)) :
    last.present = true → last.manager.activity ≠ .ended := by
  refine run_induction (motive := fun _ last =>
    last.present = true → last.manager.activity ≠ .ended) (fun _ => by simp [ofSettings]) ?_ hrun
  intro moves mid first move next later _ hmid hmove hpresent
  obtain ⟨before, input, -, takes, hfed⟩ | ⟨-, elsewhere⟩ := (moved hmove).takes_or_elsewhere
  · obtain rfl : next = (before.feed input).1 := congrArg Prod.fst hfed
    rw [feed_present, Bool.and_eq_true, bne_iff_ne] at hpresent
    rw [feed_manager]
    exact hpresent.2
  · rw [elsewhere.manager_eq]
    exact hmid (elsewhere.present_of_present hpresent)

theorem limit_of_run {settings : Settings}
    (hrun : (ofSettings settings).run moves = some (last, effects)) :
    last.limit = settings.tuning.connectLimit := by
  refine run_induction (motive := fun _ last => last.limit = settings.tuning.connectLimit) rfl ?_
    hrun
  intro moves mid first move next later _ hmid hmove
  obtain ⟨before, input, -, takes, hfed⟩ | ⟨-, elsewhere⟩ := (moved hmove).takes_or_elsewhere
  · obtain rfl : next = (before.feed input).1 := congrArg Prod.fst hfed
    rw [(feed_clock_limit before input).2, takes.limit_eq, hmid]
  · rw [elsewhere.limit_eq, hmid]

theorem closesInTime_of_run {settings : Settings}
    (hrun : (ofSettings settings).run moves = some (last, effects)) :
    ClosesInTime ((ofSettings settings).timeline moves) last := by
  refine run_induction (motive := fun moves => ClosesInTime ((ofSettings settings).timeline moves))
    ?start ?move hrun
  case start =>
    intro releasing
    exact absurd releasing (by simp [ofSettings, isReleasing])
  case move =>
    intro moves mid first move next later hmoves hclosing hmove
    rw [timeline_concat hmoves hmove]
    exact ClosesInTime.after_move hclosing (sound_of_run hmoves) (moved hmove)

end Ensemble

end PersistentLink
