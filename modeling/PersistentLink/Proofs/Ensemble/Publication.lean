import PersistentLink.Proofs.Ensemble.Timeline
import PersistentLink.Proofs.Manager.Outlook

/-!
# The published phase

Whoever holds a handle can ask for the phase at any time, be the manager busy or not. What is shown
is the phase that was published last, and that is the one in the books: between two moves the
manager has nothing to publish that it has not published yet.

## Main definitions

- `Ensemble.signs`: what is seen of the phase in a run, and what is done with links
- `Ensemble.Visible`: the signs tell where the manager stands
- `Publishes`: phases are published in order, and in step with what is done with links

## Main results

- `Ensemble.Visible.after_move`: a move shows what is allowed
- `Ensemble.phases_published`: the published phases of a run
-/

namespace PersistentLink

/-- How the closing of a writer ended. -/
def Input.outcome? : Input → Option CloseOutcome
  | closed outcome => some outcome
  | _ => none

/-- Phases are published in order, and in step with what is done with links. -/
structure Publishes (signs : List Sign) : Prop where
  /-- no phase is published twice in a row, and each follows the one before as it may -/
  changes : (Phase.idle :: Sign.phases signs).IsChain fun source target =>
    source ≠ target ∧ Phase.Change source target
  /-- live is published after a link was opened, and before anything is written to it -/
  wrote : ∀ before link after, signs = before ++ .wrote link :: after →
    ∃ earlier between, before = earlier ++ .opened link :: between ∧
      (∀ other, .opened other ∉ between) ∧ .published .live ∈ between
  /-- live is left when the closing of the link that was opened last has just ended, which is given
  up only once its time has passed -/
  left : ∀ before phase after, signs = before ++ .published phase :: after →
    Sign.shown before = .live →
      ∃ earlier link between since outcome clock,
        before = earlier ++ .opened link :: between ++
          [.closing link since, .closed outcome clock] ∧
        (∀ other, .opened other ∉ between) ∧
        (outcome = .timedOut → min (since + closeGrace) timeHorizon ≤ clock)

theorem Outlook.Passes.publishes {signs : List Sign} {w : Outlook} (h : Passes {} signs w) :
    Publishes signs where
  changes := h.isChain.imp fun _ _ change => ⟨change.ne, change⟩
  wrote := fun _ _ _ hsigns => h.of_wrote hsigns
  left := fun _ _ _ hsigns live => h.of_published hsigns live

namespace Ensemble

open Manager

/-- The end of a closing, if that is what a move is. -/
def closedSign (e : Ensemble) (move : Move) : Option Sign :=
  ((e.inputOf move).bind Input.outcome?).map (.closed · e.clock)

/-- What is seen by a move: the end of a closing comes before what is done after it. -/
def signsOf (e : Ensemble) (move : Move) : List Sign :=
  (e.closedSign move).toList ++
    match e.move move with
    | some (_, effects) => Effect.signs e.clock effects
    | none => []

/-- What is seen of the phase in a run, and what is done with links. -/
def signs : Ensemble → List Move → List Sign :=
  along signsOf

/-- The signs tell where the manager stands, and since when it closes a writer. -/
structure Visible (signs : List Sign) (e : Ensemble) (since : Option Nat) : Prop where
  sound : e.manager.Sound
  passes : Outlook.Passes {} signs (e.manager.outlook since)
  settled : e.manager.isReleasing = false → since = none
  releasing : e.manager.isReleasing = true →
    ∃ began, since = some began ∧ e.closeDeadline = some (began + closeGrace)

variable {e last : Ensemble} {move : Move} {moves : List Move} {effects : List Effect}
  {reaction : Ensemble × List Effect} {past : List Sign} {since : Option Nat}

theorem inputOf_handle_ne_closed {panicking : List ObserverId} {outcome : CloseOutcome} :
    e.inputOf (.handle panicking) ≠ some (.closed outcome) := by
  intro hinput
  obtain ⟨⟨input, next⟩, hnext, rfl⟩ := Option.map_eq_some_iff.mp hinput
  unfold nextInput at hnext
  split at hnext
  · rename_i message _ _
    cases message <;> simp [Message.toInput] at hnext
  · simp at hnext
  · split at hnext <;> simp at hnext

/-- A closing is given up only when its limit is reached. -/
theorem reached_of_timedOut (hmove : e.move move = some reaction)
    (hinput : e.inputOf move = some (.closed .timedOut)) : e.reached e.closeDeadline = true := by
  cases moved hmove with
  | expired closing late => exact late
  | messaged | commanded | deserted => exact absurd hinput inputOf_handle_ne_closed
  | closed result => cases result <;> simp [inputOf] at hinput
  | _ => simp [inputOf] at hinput

/-- The signs up to when the manager handles an input: the closing that it waited for, if there is
one, has ended. -/
theorem Visible.passes_taken (h : Visible past e since)
    (hmove : e.move move = some reaction) {input : Input}
    (hinput : e.inputOf move = some input) (hfits : e.manager.fits input = true) :
    Outlook.Passes {} (past ++ (e.closedSign move).toList) (e.manager.outlook none) := by
  cases houtcome : input.outcome? with
  | none =>
    have settled : e.manager.isReleasing = false := by
      cases hactivity : e.manager.activity <;> cases input <;>
        simp_all [isReleasing, fits, Input.outcome?]
    simpa [closedSign, hinput, houtcome, h.settled settled] using h.passes
  | some outcome =>
    obtain rfl : input = .closed outcome := by
      cases input <;> simp_all [Input.outcome?]
    have releasing : e.manager.isReleasing = true := by
      cases hactivity : e.manager.activity <;> simp_all [isReleasing, fits]
    obtain ⟨began, rfl, hdeadline⟩ := h.releasing releasing
    have patient : outcome = .timedOut → min (began + closeGrace) timeHorizon ≤ e.clock := by
      rintro rfl
      have hreached := reached_of_timedOut hmove hinput
      simpa [reached, hdeadline] using hreached
    have hallows : (e.manager.outlook (some began)).Allows (.closed outcome e.clock)
        (e.manager.outlook none) := .closed outcome e.clock began rfl patient
    simpa [closedSign, hinput, Input.outcome?] using h.passes.append hallows.passes

/-- A move shows what is allowed, and then the signs tell where the manager stands. -/
theorem Visible.after_move (h : Visible past e since) (hmove : e.move move = some reaction) :
    ∃ now, Visible (past ++ e.signsOf move) reaction.1 now := by
  have hsigns : e.signsOf move =
      (e.closedSign move).toList ++ Effect.signs e.clock reaction.2 := by
    rw [signsOf, hmove]
  obtain ⟨before, input, hinput, takes, rfl⟩ | ⟨unseen, elsewhere⟩ :=
    (moved hmove).takes_or_elsewhere
  · -- the end of a closing is seen first, and then what is done after it
    have hpasses := (h.sound.turn input).passes h.sound takes.fits e.clock
    have htaken := h.passes_taken hmove hinput takes.fits
    refine ⟨if (e.manager.step input).1.isReleasing then some e.clock else none, ?_, ?_,
      ?settled, ?releasing⟩
    · rw [feed_manager, takes.manager_eq]
      exact h.sound.step input
    · rw [hsigns, ← List.append_assoc, feed_manager, feed_snd, takes.manager_eq]
      exact htaken.append hpasses
    case settled =>
      rw [feed_manager, takes.manager_eq]
      intro settled
      simp [settled]
    case releasing =>
      intro releasing
      rw [feed_manager] at releasing
      have hbefore : before.manager.Sound := takes.manager_eq ▸ h.sound
      have hdeadline :=
        (closeDeadline_feed hbefore (takes.manager_eq ▸ takes.fits) releasing).2
      rw [takes.manager_eq] at releasing
      rw [takes.clock_eq] at hdeadline
      exact ⟨e.clock, by simp [releasing], hdeadline⟩
  · -- the others log and refuse, and none of that is a sign
    have hquiet : Effect.signs e.clock reaction.2 = [] := by
      rw [Effect.signs, Effect.seen, List.filterMap_eq_nil_iff]
      intro effect hmem
      obtain ⟨record, rfl⟩ | ⟨call, result, rfl⟩ := elsewhere.quiet effect hmem <;> rfl
    have hnone : e.signsOf move = [] := by
      rw [hsigns, hquiet, closedSign, inputOf_of_unseen unseen]
      rfl
    rw [hnone, List.append_nil]
    refine ⟨since, ?_, ?_, ?_, ?_⟩
    · rw [elsewhere.manager_eq]
      exact h.sound
    · rw [elsewhere.manager_eq]
      exact h.passes
    · rw [elsewhere.manager_eq]
      exact h.settled
    · rw [elsewhere.manager_eq, elsewhere.closeDeadline_eq]
      exact h.releasing

theorem visible_of_run {settings : Settings}
    (hrun : (ofSettings settings).run moves = some (last, effects)) :
    ∃ since, Visible ((ofSettings settings).signs moves) last since := by
  refine run_induction
    (motive := fun moves last => ∃ since, Visible ((ofSettings settings).signs moves) last since)
    ?start ?move hrun
  case start =>
    exact ⟨none, sound_new settings.endpoint.url, .nil _, fun _ => rfl,
      by simp [ofSettings, isReleasing]⟩
  case move =>
    rintro moves mid first move next later hmoves ⟨since, hvisible⟩ hmove
    have hconcat := along_concat signsOf hmoves move
    obtain ⟨now, hnext⟩ := hvisible.after_move hmove
    refine ⟨now, ?_⟩
    rw [signs, hconcat]
    exact hnext

/-- **The phase that is shown is the phase in the books.** At every moment of every run, also while
the manager waits for a write or a close, the phase that was published last is the one in the books.
No phase is published twice in a row, and each follows the one before as it may. Live is published
before the first payload is written to the link that has opened, and is left once the closing of
that link has ended. -/
theorem phases_published {settings : Settings}
    (hrun : (ofSettings settings).run moves = some (last, effects)) :
    Sign.shown ((ofSettings settings).signs moves) = last.manager.phase ∧
      Publishes ((ofSettings settings).signs moves) := by
  obtain ⟨since, hvisible⟩ := visible_of_run hrun
  exact ⟨hvisible.passes.phase_eq.symm, hvisible.passes.publishes⟩

/-- The queue is being written to a new link, and live is shown. The write fails, and the close of
the link is given up; while it goes on, live is still shown. -/
theorem phases_published_lost :
    let start := ofSettings {}
    let moves : List Move := [.submit (.send (.text "a")), .handle [], .callOpen false,
      .answerOpen 0 (.ok 7), .handle [], .written (.error .connectionClosed)]
    let later : List Move := [.elapse 1000, .closeExpired]
    ∃ mid first last effects, start.run moves = some (mid, first) ∧
      start.run (moves ++ later) = some (last, effects) ∧
      start.signs (moves ++ later) = [.published .connecting, .opened 7, .published .live,
        .wrote 7, .closing 7 0, .closed .timedOut 1000, .published .down] ∧
      mid.manager.phase = .live ∧ last.manager.phase = .down ∧
      Publishes (start.signs (moves ++ later)) := by
  intro start moves later
  have hpossible : (start.run moves).isSome = true := by decide +kernel
  have hall : (start.run (moves ++ later)).isSome = true := by decide +kernel
  have hsigns : start.signs (moves ++ later) = [.published .connecting, .opened 7,
      .published .live, .wrote 7, .closing 7 0, .closed .timedOut 1000, .published .down] := by
    decide +kernel
  have hbefore : start.signs moves = [.published .connecting, .opened 7, .published .live,
      .wrote 7, .closing 7 0] := by decide +kernel
  obtain ⟨⟨mid, first⟩, hmid⟩ := Option.isSome_iff_exists.mp hpossible
  obtain ⟨⟨last, effects⟩, hlast⟩ := Option.isSome_iff_exists.mp hall
  obtain ⟨hlive, -⟩ := phases_published hmid
  obtain ⟨hdown, hpublishes⟩ := phases_published hlast
  rw [hbefore] at hlive
  rw [hsigns] at hdown
  exact ⟨mid, first, last, effects, hmid, hlast, hsigns, hlive.symm, hdown.symm, hpublishes⟩

end Ensemble

end PersistentLink
