import PersistentLink.Proofs.Ensemble.Delivery
import PersistentLink.Proofs.Ensemble.Reports
import PersistentLink.Proofs.Manager.Ledger

/-!
# Shutdown

A manager ends when nobody can give commands any more. By then it has handled every command that was
given, as it looks for the end of all commands only once nothing else waits. It gives up the link it
holds, and announces the reset as the last thing it does. Nothing is left behind: every link that
was handed over has been closed, no task goes on, and no message waits.

## Main definitions

- `Manager.Leaving`: the manager has ended, or will once its writer has been closed
- `Manager.Farewell`: the last step of a manager
- `Ensemble.Vacant`: nobody gives commands, and there is nothing to handle
- `Ensemble.Concludes`: how a run comes to the end of its manager

## Main results

- `Manager.Turn.farewell`: a step that ends the manager is the last of them
- `Ensemble.vacant_of_run`: nothing is left from when the manager begins to leave
- `Ensemble.Vacant.run`: after the end, commands are refused and nothing else is done
- `Ensemble.reset_comes_last`: what a run is in which the manager ends
-/

namespace PersistentLink

/-- The command that a caller gives by a move. -/
def Move.command? : Move → Option Command
  | submit command => some command
  | _ => none

/-! ## The manager -/

namespace Manager

open Effect

/-- The manager has ended, or will once the writer of its link has been closed. -/
def Leaving (m : Manager) : Prop :=
  m.activity = .ended ∨ ∃ generation, m.activity = .closing generation .shutdown

/-- The last step of a manager: nothing is being written, and what is queued is discarded. -/
structure Farewell (m : Manager) (input : Input) (reaction : Reaction) : Prop where
  unheard : m.heard input = none
  idle : m.inFlight = none
  phase_eq : reaction.1.phase = .idle
  /-- the reset is announced in the end, and no event before it -/
  effects_eq : ∃ notice, reaction.2 = notice ++ [.emit (.reset m.queue.length)] ∧
    events notice = []

variable {m : Manager} {input : Input} {reaction : Reaction}

theorem Leaving.not_ready (h : m.Leaving) : m.activity ≠ .ready := by
  obtain ended | ⟨generation, closing⟩ := h
  · simp [ended]
  · simp [closing]

/-- A manager begins to leave when it finds that no command will come any more. -/
theorem Turn.leaving (turn : Turn m input reaction) (leaving : reaction.1.Leaving) :
    input = .commandsEnded ∨ m.Leaving := by
  cases turn with
  | dismissing order | dismissed order =>
    cases order with
    | close call => simp [Leaving, resume, settleReset] at leaving
    | shutdown => exact .inl rfl
  | released generation rest outcome busy =>
    cases rest with
    | shutdown => exact .inr (.inr ⟨generation, busy⟩)
    | _ => simp [Leaving, resume, settleLost, settleClosed, settleReset, beginAttempt] at leaving
  | ignored => exact .inr leaving
  | _ => simp_all [Leaving, beginAttempt]

/-- All is released and discarded, and the manager ends. -/
theorem farewell_resume {other : Manager} (hqueue : other.queue = m.queue)
    (unheard : m.heard input = none) (idle : m.inFlight = none) {notice : List Effect}
    (silent : events notice = []) :
    m.Farewell input ((other.resume .shutdown).after notice) where
  unheard := unheard
  idle := idle
  phase_eq := rfl
  effects_eq := by
    refine ⟨notice ++ (answerAll other.waiters (.error .aborted) ++
      transition other.phase .idle ++ [.log (.reset other.queue.length)]), ?_, ?_⟩
    · simp [resume, settleReset, hqueue]
    · simp [silent, event?]

/-- A manager that ends has done all that it ever does. -/
theorem Turn.farewell (turn : Turn m input reaction) (going : m.activity ≠ .ended)
    (ended : reaction.1.activity = .ended) : m.Farewell input reaction := by
  cases turn with
  | dismissed order ready =>
    cases order with
    | close call => simp [resume, settleReset] at ended
    | shutdown =>
      have hqueue : { m with attempting := false }.queue = m.queue := rfl
      refine farewell_resume hqueue ?_ (inFlight_ready ready) ?_
      · simp [heard, ready]
      · cases m.attempting <;> rfl
  | released generation rest outcome busy =>
    cases rest with
    | shutdown => exact farewell_resume rfl (by simp [heard]) (by simp [inFlight, busy]) rfl
    | _ => simp [resume, settleLost, settleClosed, settleReset, beginAttempt] at ended
  | ignored => exact absurd ended going
  | _ => simp_all [beginAttempt]

/-- A manager that leaves holds no link. -/
theorem Sound.reader_eq_none (h : m.Sound) (leaving : m.Leaving) : m.reader = none := by
  obtain ended | ⟨generation, closing⟩ := leaving
  · simp only [Sound, ended] at h
    exact (h.1.unlinked (by simp [h.2])).2
  · simp only [Sound, closing] at h
    exact h.2.reader_eq

end Manager

namespace Ensemble

open Manager Deed

variable {settings : Settings} {e mid next last : Ensemble} {c : Custody} {move : Move}
  {moves : List Move} {effects first later : List Effect} {reaction : Ensemble × List Effect}

/-! ## Commands that are given -/

theorem present_of_move (hmove : e.move move = some reaction)
    (present : reaction.1.present = true) : e.present = true := by
  obtain ⟨before, input, -, takes, rfl⟩ | ⟨-, elsewhere⟩ := (moved hmove).takes_or_elsewhere
  · exact takes.present
  · exact elsewhere.present_of_present present

/-- As long as the manager is there, all commands that are given enter its queue. -/
theorem entered_of_present (hrun : (ofSettings settings).run moves = some (last, effects)) :
    last.present = true → (ofSettings settings).entered moves = moves.filterMap Move.command? := by
  refine run_induction (motive := fun moves last => last.present = true →
    (ofSettings settings).entered moves = moves.filterMap Move.command?) (fun _ => rfl) ?_ hrun
  intro moves mid first move next later hmoves ih hmove present
  have hmid := present_of_move hmove present
  rw [entered_concat hmoves, List.filterMap_append, ih hmid]
  cases move <;> simp [admitted, Move.command?, hmid]

/-- The last of those who can give commands goes away by a move of its own. -/
theorem Moved.attached_eq (moved : e.Moved move reaction) :
    reaction.1.attached = e.attached ∨ move = .detach := by
  have fed (before : Ensemble) (input : Input) :
      (before.feed input).1.attached = before.attached :=
    (framed_foldl_absorb { before with manager := (before.manager.step input).1 } _).attached_eq
  cases moved with
  | detached => exact .inr rfl
  | messaged | commanded | deserted | wrote | closed | expired => exact .inl (fed _ _)
  | answered | reported | timedOut =>
    rw [endAttempt, post]
    split <;> exact .inl rfl
  | _ => exact .inl rfl

theorem detach_mem_of_run (hrun : (ofSettings settings).run moves = some (last, effects)) :
    last.attached = false → .detach ∈ moves := by
  refine run_induction (motive := fun moves last => last.attached = false → .detach ∈ moves)
    (by simp [ofSettings]) ?_ hrun
  intro moves mid first move next later _ ih hmove unattached
  rw [List.mem_append, List.mem_singleton]
  obtain hsame | rfl := (moved hmove).attached_eq
  · exact .inl (ih (hsame.symm.trans unattached))
  · exact .inr rfl

/-! ## Nothing is left -/

/-- Nobody gives commands, and there is nothing to handle. -/
structure Vacant (e : Ensemble) : Prop where
  unattached : e.attached = false
  unasked : e.commands = []
  silent : e.inbox = []
  /-- no attempt is in flight -/
  unattempted : e.attempts = []
  /-- no link is read -/
  unread : e.readers = []

theorem attentive_of_run (hrun : (ofSettings settings).run moves = some (last, effects))
    (unpinned : ∀ move ∈ moves, move.pins = false) : last.Attentive := by
  refine orderly_induction (motive := fun _ last => last.Attentive) (attentive_start settings) ?_
    hrun unpinned
  intro moves mid first move next later c _ _ unpinned _ ih hmove
  refine (ih.conveys hmove ?_).attentive
  rintro link rfl
  exact absurd unpinned (by simp [Move.pins])

/-- The tasks of a manager that leaves have ended. -/
theorem Orderly.tasks_eq_nil (h : Orderly e c) (hattentive : e.Attentive)
    (leaving : e.manager.Leaving) : e.attempts = [] ∧ e.readers = [] := by
  have hnone := (List.append_eq_nil_iff.mp (h.outstanding_eq_nil leaving.not_ready)).1
  exact ⟨List.map_eq_nil_iff.mp hnone,
    hattentive.readers_eq_nil (h.sound.reader_eq_none leaving)⟩

/-- The manager leaves nothing to handle when there was nothing before. -/
theorem vacant_feed {before : Ensemble} {input : Input}
    (idle : (before.feed input).1.attempts = [] ∧ (before.feed input).1.readers = [])
    (unattached : before.attached = false) (unasked : before.commands = [])
    (silent : before.inbox = []) : (before.feed input).1.Vacant := by
  have hframed := framed_foldl_absorb { before with manager := (before.manager.step input).1 }
    (before.manager.step input).2
  exact ⟨hframed.attached_eq.trans unattached, hframed.commands_eq.trans unasked,
    hframed.inbox_eq.trans silent, idle.1, idle.2⟩

/-- A move after which the manager leaves is the one by which it finds that no command will come any
more, or nothing was left before. -/
theorem Moved.vacant (moved : e.Moved move reaction) (hsound : e.manager.Sound)
    (before : e.manager.Leaving → e.Vacant) (leaving : reaction.1.manager.Leaving)
    (idle : reaction.1.attempts = [] ∧ reaction.1.readers = []) : reaction.1.Vacant := by
  have fed {other : Ensemble} {input : Input} (hleaving : (other.feed input).1.manager.Leaving)
      (hmanager : other.manager = e.manager) (going : input ≠ .commandsEnded) : e.Vacant := by
    rw [feed_manager, hmanager] at hleaving
    exact before (((hsound.turn input).leaving hleaving).resolve_left going)
  cases moved with
  | refused | elapsed | collapsed => exact { before leaving with }
  | submitted _ _ attached | detached attached =>
    exact absurd attached (by simp [(before leaving).unattached])
  | messaged _ message _ _ _ first =>
    have hvacant := fed leaving rfl (by cases message <;> simp [Message.toInput])
    simp [hvacant.silent] at first
  | commanded _ _ _ _ _ _ first =>
    have hvacant := fed leaving rfl (by simp)
    simp [hvacant.unasked] at first
  | deserted _ _ _ silent unasked unattached => exact vacant_feed idle unattached unasked silent
  | wrote | closed | expired =>
    have hvacant := fed leaving rfl (by simp)
    exact vacant_feed idle hvacant.unattached hvacant.unasked hvacant.silent
  | called _ before attempt after _ _ hattempts => simp at idle
  | answered _ _ _ calls | reported _ _ _ calls | timedOut _ _ calls =>
    rw [(elsewhere_endAttempt _ _ _).manager_eq] at leaving
    have hmem := calls.mem
    simp [(before leaving).unattempted] at hmem
  | completed | vanished | fastened =>
    exact { before leaving with unattempted := idle.1, unread := idle.2 }
  | passed _ _ task reads => simp [(before leaving).unread] at reads

/-- Nothing is left from when the manager begins to leave. -/
theorem vacant_of_run (hrun : (ofSettings settings).run moves = some (last, effects))
    (unpinned : ∀ move ∈ moves, move.pins = false) : last.manager.Leaving → last.Vacant := by
  refine orderly_induction (motive := fun _ last => last.manager.Leaving → last.Vacant)
    (fun leaving => absurd rfl leaving.not_ready) ?_ hrun unpinned
  intro moves mid first move next later c hmoves hearlier hmovePins horderly ih hmove leaving
  have hnext := run_concat hmoves hmove
  have hpins : ∀ other ∈ moves ++ [move], other.pins = false := by
    intro other hmem
    obtain hmem | hmem := List.mem_append.mp hmem
    · exact hearlier other hmem
    · exact List.mem_singleton.mp hmem ▸ hmovePins
  obtain ⟨later, hlater⟩ := orderly_of_run hnext hpins
  exact (moved hmove).vacant horderly.sound ih leaving
    (hlater.tasks_eq_nil (attentive_of_run hnext hpins) leaving)

/-! ## After the end -/

theorem present_of_isBlocked (blocked : e.isBlocked = true) : e.present = true := by
  obtain writing | closing := Bool.or_eq_true_iff.mp blocked
  · exact (fits_of_isWriting writing (.ok ())).1
  · exact (takes_of_isClosing closing .done).present

/-- Once the manager is gone and nothing is left, commands are refused, and time passes. -/
theorem Vacant.after_move (h : e.Vacant) (gone : e.present = false)
    (moved : e.Moved move reaction) (unpinned : move.pins = false) :
    (reaction.1.Vacant ∧ reaction.1.present = false ∧ reaction.1.manager = e.manager) ∧
      reaction.2 = move.command?.toList.flatMap refuse ∧
      ((∃ command, move = .submit command) ∨ ∃ span, move = .elapse span) := by
  have absent {P : Prop} (present : e.present = true) : P := by
    simp [gone] at present
  cases moved with
  | refused command => exact ⟨⟨h, gone, rfl⟩, by simp [Move.command?], .inl ⟨command, rfl⟩⟩
  | elapsed span => exact ⟨⟨{ h with }, gone, rfl⟩, rfl, .inr ⟨span, rfl⟩⟩
  | submitted _ present | messaged _ _ _ present | commanded _ _ _ present
      | deserted _ present => exact absent present
  | detached attached => simp [h.unattached] at attached
  | wrote result writing => exact absent (fits_of_isWriting writing result).1
  | closed _ closing | expired closing => exact absent (takes_of_isClosing closing .done).present
  | collapsed blocked => exact absent (present_of_isBlocked blocked)
  | called _ _ _ _ _ _ hattempts => simp [h.unattempted] at hattempts
  | answered _ _ _ calls | completed _ _ _ calls | reported _ _ _ calls | timedOut _ _ calls
      | vanished _ _ calls =>
    have hmem := calls.mem
    simp [h.unattempted] at hmem
  | fastened link => simp [Move.pins] at unpinned
  | passed _ _ task reads => simp [h.unread] at reads

/-- A run after the end. -/
theorem Vacant.run (h : e.Vacant) (gone : e.present = false)
    (hrun : e.run moves = some (last, effects)) (unpinned : ∀ move ∈ moves, move.pins = false) :
    last.manager = e.manager ∧ effects = (moves.filterMap Move.command?).flatMap refuse ∧
      ∀ move ∈ moves, (∃ command, move = .submit command) ∨ ∃ span, move = .elapse span := by
  induction moves generalizing e effects with
  | nil =>
    obtain ⟨rfl, rfl⟩ := Prod.mk.inj (Option.some.inj hrun)
    exact ⟨rfl, rfl, by simp⟩
  | cons move rest ih =>
    obtain ⟨next, first, later, hmove, hrest, rfl⟩ := exists_of_run_cons hrun
    obtain ⟨hnow, hlater⟩ := List.forall_mem_cons.mp unpinned
    obtain ⟨⟨hvacant, hgone, hmanager⟩, hfirst, hkind⟩ := h.after_move gone (moved hmove) hnow
    obtain ⟨hsame, hothers, hkinds⟩ := ih hvacant hgone hrest hlater
    refine ⟨hsame.trans hmanager, ?_, List.forall_mem_cons.mpr ⟨hkind, hkinds⟩⟩
    have hrefused : first = move.command?.toList.flatMap refuse := hfirst
    rw [hrefused, hothers, ← List.flatMap_append]
    cases move <;> rfl

/-! ## Runs in which the manager ends -/

theorem handovers_journal_eq (hrun : e.run moves = some (last, effects)) :
    handovers (e.journal moves) = moves.filterMap Move.link? := by
  induction moves generalizing e effects with
  | nil => rfl
  | cons move rest ih =>
    obtain ⟨next, first, later, hmove, hrest, rfl⟩ := exists_of_run_cons hrun
    rw [journal, hmove, handovers_append, handovers_append, handovers_deedOf, handovers_deeds,
      ih hrest, List.append_nil]
    cases hlink : move.link? <;> simp [hlink]

/-- What holds after a run and not before comes to hold by some move. -/
theorem exists_turning (P : Ensemble → Prop) (hrun : e.run moves = some (last, effects))
    (hstart : ¬P e) (hlast : P last) :
    ∃ before final after mid first next done later, moves = before ++ final :: after ∧
      e.run before = some (mid, first) ∧ mid.move final = some (next, done) ∧
      next.run after = some (last, later) ∧ effects = first ++ done ++ later ∧ ¬P mid ∧ P next := by
  induction moves generalizing e effects with
  | nil =>
    obtain ⟨rfl, -⟩ := Prod.mk.inj (Option.some.inj hrun)
    exact absurd hlast hstart
  | cons move rest ih =>
    obtain ⟨next, first, later, hmove, hrest, rfl⟩ := exists_of_run_cons hrun
    by_cases hnext : P next
    · exact ⟨[], move, rest, e, [], next, first, later, rfl, rfl, hmove, hrest, rfl, hstart, hnext⟩
    · obtain ⟨before, final, after, mid, others, turned, done, rest, rfl, hbefore, hfinal, hafter,
        rfl, hmid, hturned⟩ := ih hrest hnext
      refine ⟨move :: before, final, after, mid, first ++ others, turned, done, rest, rfl, ?_,
        hfinal, hafter, by simp, hmid, hturned⟩
      simp [run, hmove, hbefore]

/-- A run up to the move by which the manager ends, and that move. -/
structure Concludes (start : Ensemble) (before : List Move) (mid : Ensemble)
    (done : List Effect) : Prop where
  /-- the last of those who could give commands has gone away -/
  detached : .detach ∈ before
  /-- all commands that were given have been handled, in order -/
  handled_eq : start.manager.handled (start.fed before) = before.filterMap Move.command?
  /-- the queue is what was accepted and has not been written -/
  accepted_eq : (start.manager.ledger (start.fed before)).accepted =
    (start.manager.ledger (start.fed before)).written ++ mid.manager.queue
  /-- the end is announced with the number of payloads that are abandoned, and nothing is done after
  that -/
  done_eq : ∃ notice, done = notice ++ [.emit (.reset mid.manager.queue.length)] ∧
    Effect.events notice = []

/-- A move by which the manager ends concludes the run. -/
theorem concludes_of_move (hrun : (ofSettings settings).run moves = some (mid, first))
    (hmove : mid.move move = some (next, later)) (hvacant : next.Vacant)
    (going : mid.manager.activity ≠ .ended) (ended : next.manager.activity = .ended) :
    (ofSettings settings).Concludes moves mid later ∧ next.manager.phase = .idle := by
  have hnext := run_concat hrun hmove
  obtain ⟨before, input, hinput, takes, hfed⟩ | ⟨-, elsewhere⟩ := (moved hmove).takes_or_elsewhere
  · have hmanager : next.manager = (mid.manager.step input).1 := by
      rw [← takes.manager_eq, ← feed_manager, ← hfed]
    have hlater : later = (mid.manager.step input).2 := by
      rw [← takes.manager_eq, ← feed_snd, ← hfed]
    rw [hmanager] at ended
    have hfarewell := ((sound_of_run hrun).turn input).farewell going ended
    have hbooks := (feeds_of_run hrun).1
    refine ⟨⟨?detached, ?handled, ?accepted, hlater ▸ hfarewell.effects_eq⟩,
      hmanager ▸ hfarewell.phase_eq⟩
    case detached =>
      have hmem := detach_mem_of_run hnext hvacant.unattached
      rw [List.mem_append, List.mem_singleton] at hmem
      refine hmem.resolve_right ?_
      rintro rfl
      simp [inputOf] at hinput
    case handled =>
      have hentered := (feeds_of_run hnext).2
      rw [hvacant.unasked, fed_concat hrun, hinput, Option.toList_some, handled_concat, ← hbooks,
        hfarewell.unheard, entered_concat hrun, entered_of_present hrun takes.present] at hentered
      cases move <;> simp_all [admitted, inputOf, ofSettings]
    case accepted =>
      have hbalanced : ((ofSettings settings).manager.run _).1.Balanced _ :=
        balanced_run settings.endpoint.url ((ofSettings settings).fed moves)
      rw [← hbooks] at hbalanced
      exact hbalanced.accepted_eq_of_idle hfarewell.idle
  · rw [elsewhere.manager_eq] at ended
    exact absurd ended going

/-- **A reset is the last thing that a manager does.** Whatever happens, as long as no task goes on
after it was given up: if the manager comes to its end, then all who could give commands have gone
away, and every command was handled before, in order. The manager ends with a reset, which counts
the payloads that are abandoned, and then it is idle. Nothing but refusals of commands comes after
that. No task and no message is left, and every link that the transport has handed over was closed
once. -/
theorem reset_comes_last (hrun : (ofSettings settings).run moves = some (last, effects))
    (unpinned : ∀ move ∈ moves, move.pins = false) (ended : last.manager.activity = .ended) :
    let start := ofSettings settings
    (∃ before final after mid first next done later, moves = before ++ final :: after ∧
      start.run before = some (mid, first) ∧ mid.move final = some (next, done) ∧
      next.run after = some (last, later) ∧ effects = first ++ done ++ later ∧
      start.Concludes before mid done ∧
      later = (after.filterMap Move.command?).flatMap refuse ∧
      ∀ move ∈ after, (∃ command, move = .submit command) ∨ ∃ span, move = .elapse span) ∧
      last.manager.phase = .idle ∧ last.Vacant ∧
      closings (start.journal moves) = moves.filterMap Move.link? := by
  intro start
  obtain ⟨before, final, after, mid, first, next, done, later, rfl, hbefore, hfinal, hafter, rfl,
    going, hended⟩ := exists_turning (·.manager.activity = .ended) hrun (by simp [ofSettings]) ended
  have hupto := run_concat hbefore hfinal
  have hpins : (∀ move ∈ before ++ [final], move.pins = false) ∧
      ∀ move ∈ after, move.pins = false := by
    simpa [or_imp, forall_and, and_assoc] using unpinned
  have hvacant := vacant_of_run hupto hpins.1 (.inl hended)
  have gone : next.present = false := by
    rw [← Bool.not_eq_true]
    exact fun present => not_ended_of_run hupto present hended
  obtain ⟨hconcludes, hidle⟩ := concludes_of_move hbefore hfinal hvacant going hended
  obtain ⟨hmanager, hrefused, hkinds⟩ := hvacant.run gone hafter hpins.2
  have hlast := vacant_of_run hrun unpinned (.inl ended)
  have hphase : last.manager.phase = .idle := by rw [hmanager, hidle]
  refine ⟨⟨before, final, after, mid, first, next, done, later, rfl, hbefore, hfinal, hafter, rfl,
    hconcludes, hrefused, hkinds⟩, hphase, hlast, ?_⟩
  -- no link is held or waits, so those whose closing has begun are all that were handed over
  obtain ⟨c, kept, horderly⟩ := (orderly_start settings).run .nil hrun unpinned
  have hsettled : last.manager.Settled := by
    have hsound := horderly.sound
    simp only [Sound, ended] at hsound
    exact hsound.1
  have hwriter := (hsettled.unlinked (by simp [hphase])).1
  have hlink : c.link = none :=
    (horderly.link_eq_writer (by simp [ended])).trans hwriter
  have hhandovers := kept.handovers_eq
  rw [List.nil_append, handovers_journal_eq hrun, hlink] at hhandovers
  simpa using hhandovers.symm

/-- The link is lost after the last caller has gone away, so a payload is abandoned. A command that
comes too late is refused. -/
theorem reset_comes_last_abandoning :
    let start := ofSettings {}
    let moves : List Move := [.submit (.send (.text "a")), .handle [], .callOpen false,
      .submit (.send (.text "b")), .answerOpen 0 (.ok 7), .detach, .handle [], .written (.ok ()),
      .handle [], .written (.error .connectionClosed), .closed (.ok ()), .handle [],
      .submit (.send (.text "c"))]
    ∃ last effects, start.run moves = some (last, effects) ∧ last.manager.activity = .ended ∧
      (Effect.events effects).getLast? = some (.reset 1) ∧ last.manager.phase = .idle ∧
      last.Vacant ∧ closings (start.journal moves) = [7] := by
  intro start moves
  have hpossible : (start.run moves).isSome = true := by decide +kernel
  obtain ⟨⟨last, effects⟩, hrun⟩ := Option.isSome_iff_exists.mp hpossible
  have hend : (start.run moves).map (fun result =>
      (result.1.manager.activity, (Effect.events result.2).getLast?)) =
        some (.ended, some (.reset 1)) := by decide +kernel
  rw [hrun] at hend
  obtain ⟨hended, hreset⟩ := Prod.mk.inj (Option.some.inj hend)
  obtain ⟨-, hidle, hvacant, hclosings⟩ := reset_comes_last hrun (by decide) hended
  exact ⟨last, effects, hrun, hended, hreset, hidle, hvacant, hclosings⟩

end Ensemble

end PersistentLink
