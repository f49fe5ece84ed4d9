import PersistentLink.Proofs.Ensemble.Quiescence
import PersistentLink.Proofs.Ensemble.Reports

/-!
# Limits of attempts

The limit of an attempt counts from its call to the transport, which is made before any time passes.
So while nobody can proceed, an attempt is in flight for less than the limit. Callers wait for it,
or for the attempt before and for it. That one may have been over its limit when it ended: time can
pass in one go, and a limit is only noticed once it has passed. An answer that has come by then is
what is reported, though the limit has been reached as well.

## Main definitions

- `Ensemble.Paces`: attempts make their calls, and their ends are handled, before time passes, which
  it does not far beyond a limit
- `Ensemble.InTime`: since when the present attempt is in flight, and since when callers wait

## Main results

- `Ensemble.Quiescent.paced_of_run`: time passes so when nobody can proceed, and after what nobody
  has acted on since
- `Ensemble.flying_of_run`: while the manager waits for an attempt, there is one
- `Ensemble.punctual_of_run`: its limit counts from its announcement
- `Ensemble.limits_kept`: how long an attempt, its callers and a close can last
- `Ensemble.limits_overrun`: callers may wait longer if much time passes in one go, and for ever if
  an attempt breaks down
-/

namespace PersistentLink

/-- A caller acts, or the transport ends a call: nobody has acted on that yet. -/
def Move.isOutside : Move → Bool
  | submit _ | detach | completeOpen .. => true
  | _ => false

namespace Ensemble

open Manager

/-! ## Passing time -/

/-- The attempts in flight have called the transport, and no end of an attempt waits to be
handled. -/
def Engaged (e : Ensemble) : Prop :=
  (∀ attempt ∈ e.attempts, attempt.number ≠ none) ∧ e.inbox.filterMap Message.ended? = []

/-- When time passes while the manager waits for an attempt, nobody has yet to call the transport
or to learn of an end. It passes by at most so much beyond the limit of an attempt in flight. -/
def Paced (slack : Nat) (e : Ensemble) : Move → Prop
  | .elapse span => e.manager.phase = .connecting →
    e.Engaged ∧ ∀ attempt ∈ e.attempts, ∀ deadline, attempt.deadline = some deadline →
      e.clock + span ≤ deadline + slack
  | _ => True

/-- Time passes so in all of a run. -/
def Paces (slack : Nat) (e : Ensemble) : List Move → Prop
  | [] => True
  | move :: rest => e.Paced slack move ∧
      ∀ next effects, e.move move = some (next, effects) → next.Paces slack rest

variable {start e mid last next : Ensemble} {c : Custody} {moves : List Move} {move : Move}
  {effects first later : List Effect} {settings : Settings} {slack limit : Nat}

theorem Paces.of_concat (hrun : e.run moves = some (mid, first))
    (h : e.Paces slack (moves ++ [move])) : e.Paces slack moves ∧ mid.Paced slack move := by
  induction moves generalizing e first with
  | nil =>
    obtain ⟨rfl, -⟩ := Prod.mk.inj (Option.some.inj hrun)
    exact ⟨trivial, h.1⟩
  | cons head rest ih =>
    obtain ⟨next, made, others, hhead, hrest, -⟩ := exists_of_run_cons hrun
    obtain ⟨hpaces, hpaced⟩ := ih hrest (h.2 next made hhead)
    refine ⟨⟨h.1, fun other effects hother => ?_⟩, hpaced⟩
    obtain ⟨rfl, rfl⟩ := Prod.mk.inj (Option.some.inj (hhead.symm.trans hother))
    exact hpaces

/-- That time passes so, computed. -/
def isPaced (slack : Nat) (e : Ensemble) : Move → Bool
  | .elapse span => e.manager.phase != .connecting ||
    e.attempts.all (·.number.isSome) && (e.inbox.filterMap Message.ended?).isEmpty &&
      e.attempts.all fun attempt =>
        attempt.deadline.all fun deadline => decide (e.clock + span ≤ deadline + slack)
  | _ => true

/-- That time passes so in all of a run, computed. -/
def keepsPace (slack : Nat) (e : Ensemble) : List Move → Bool
  | [] => true
  | move :: rest => e.isPaced slack move &&
      match e.move move with
      | some (next, _) => next.keepsPace slack rest
      | none => true

theorem paced_of_isPaced (h : e.isPaced slack move = true) : e.Paced slack move := by
  cases move with
  | elapse span =>
    intro connecting
    simp only [isPaced, connecting, bne_self_eq_false, Bool.false_or, Bool.and_eq_true,
      List.all_eq_true, List.isEmpty_iff] at h
    obtain ⟨⟨hcalled, hended⟩, hspans⟩ := h
    refine ⟨⟨fun attempt hmem => Option.isSome_iff_ne_none.mp (hcalled attempt hmem), hended⟩,
      fun attempt hmem deadline hdeadline => ?_⟩
    have hspan := hspans attempt hmem
    rw [hdeadline] at hspan
    exact of_decide_eq_true hspan
  | _ => trivial

theorem paces_of_keepsPace (h : e.keepsPace slack moves = true) : e.Paces slack moves := by
  induction moves generalizing e with
  | nil => trivial
  | cons move rest ih =>
    obtain ⟨hpaced, hrest⟩ := Bool.and_eq_true_iff.mp h
    refine ⟨paced_of_isPaced hpaced, fun next effects hmove => ih ?_⟩
    rwa [hmove] at hrest

/-! ## While the manager waits for an attempt, there is one -/

/-- A task is in flight while it is neither given up nor started again. -/
theorem attempts_foldl_absorb_of_ongoing (habandon : .abandonAttempt ∉ effects)
    (hstart : Effect.attempts effects = []) : (effects.foldl absorb e).attempts = e.attempts := by
  induction effects generalizing e with
  | nil => rfl
  | cons effect rest ih =>
    rw [Effect.attempts, Effect.seen_cons, List.append_eq_nil_iff] at hstart
    rw [List.foldl_cons, ih (fun hmem => habandon (List.mem_cons_of_mem _ hmem)) hstart.2]
    cases effect with
    | startAttempt => simp [Effect.attempt?] at hstart
    | abandonAttempt => exact absurd List.mem_cons_self habandon
    | _ => rfl

/-- The attempt that the manager waits for is in flight, or its report waits to be handled. -/
def Flying (e : Ensemble) : Prop :=
  e.manager.phase = .connecting → e.outstanding ≠ []

/-- An attempt that goes on through a step is the one from before. -/
structure Ongoing (e next : Ensemble) (input : Input) : Prop where
  connecting : e.manager.phase = .connecting
  generation_eq : next.manager.generation = e.manager.generation
  attempts_eq : next.attempts = e.attempts
  waiters_eq : next.manager.waiters =
    e.manager.waiters ++ ((e.manager.heard input).toList.filterMap Command.caller?).map .joiner
  unannounced : ∀ effect ∈ (e.manager.step input).2, effect.isAnnouncement = false

/-- After a step, an attempt has just been started, or goes on. -/
theorem Takes.started_or_ongoing {before : Ensemble} {input : Input}
    (takes : e.Takes before input) (hsound : e.manager.Sound)
    (connecting : (before.feed input).1.manager.phase = .connecting) :
    .startAttempt (before.feed input).1.manager.generation ∈ (e.manager.step input).2 ∨
      e.Ongoing (before.feed input).1 input := by
  rw [feed_manager, takes.manager_eq] at connecting
  have hturn := hsound.turn input
  obtain hstarted | ⟨hearlier, hgeneration, -, hwaiters⟩ := hturn.of_connecting hsound connecting
  · rw [feed_manager, takes.manager_eq]
    exact .inl hstarted
  · obtain ⟨habandon, hannounce⟩ := hturn.of_ongoing hsound connecting hgeneration
    -- an attempt that starts would have the next generation
    have hnone : Effect.attempts (e.manager.step input).2 = [] := by
      obtain hnone | ⟨-, hnext, -⟩ := hturn.attempts_eq
      · exact hnone
      · omega
    refine .inr ⟨hearlier, ?_, ?_, ?_, fun effect hmem => ?_⟩
    · rw [feed_manager, takes.manager_eq]
      exact hgeneration
    · rw [feed_attempts, takes.manager_eq, attempts_foldl_absorb_of_ongoing habandon hnone]
      exact takes.attempts_eq
    · rw [feed_manager, takes.manager_eq]
      exact hwaiters
    · cases effect with
      | emit event =>
        cases event with
        | connecting generation trigger => exact absurd hmem (hannounce generation trigger)
        | _ => rfl
      | _ => rfl

/-- A report that is handled is of the present attempt, which the manager waits for. -/
theorem Takes.expected {before : Ensemble} {generation : Nat} {result : Except Failure LinkId}
    (takes : e.Takes before (.attemptFinished generation result)) (horderly : Orderly e c) :
    generation = e.manager.generation ∧ e.manager.phase = .connecting := by
  obtain ⟨message, panicking, hinput, hinbox⟩ | ⟨-, hother⟩ := takes.inbox_eq
  · have hmem : generation ∈ e.outstanding := by
      cases message with
      | linkEvent => simp [Message.toInput] at hinput
      | attemptFinished =>
        obtain ⟨rfl, -⟩ := Input.attemptFinished.inj hinput
        simp [outstanding, hinbox, Message.ended?]
    obtain hnone | ⟨hone, connecting, -⟩ := horderly.expected
    · simp [hnone] at hmem
    · exact ⟨by simpa [hone] using hmem, connecting⟩
  · exact absurd rfl (hother generation result)

/-- Nothing is under way while the manager waits for an attempt. -/
theorem ready_of_run (hrun : (ofSettings settings).run moves = some (last, effects))
    (unpinned : ∀ move ∈ moves, move.pins = false) :
    last.manager.phase = .connecting → last.manager.activity = .ready := by
  refine orderly_induction (motive := fun _ last =>
    last.manager.phase = .connecting → last.manager.activity = .ready) (fun _ => rfl) ?_ hrun
    unpinned
  intro moves mid first move next later c _ _ _ horderly ih hmove connecting
  obtain ⟨before, input, -, takes, hfed⟩ | ⟨-, elsewhere⟩ := (moved hmove).takes_or_elsewhere
  · obtain rfl : next = (before.feed input).1 := congrArg Prod.fst hfed
    rw [feed_manager, takes.manager_eq] at connecting ⊢
    refine (horderly.sound.turn input).ready_of_connecting horderly.sound ih ?_ connecting
    rintro generation result rfl
    exact takes.expected horderly
  · rw [elsewhere.manager_eq] at connecting ⊢
    exact ih connecting

/-- A message that is handled while an attempt goes on does not report its end. -/
theorem Takes.ended_eq {before : Ensemble} {input : Input} (takes : e.Takes before input)
    (horderly : Orderly e c) (connecting : e.manager.phase = .connecting)
    (ongoing : (e.manager.step input).1.phase = .connecting)
    (hsame : (e.manager.step input).1.generation = e.manager.generation) :
    before.inbox.filterMap Message.ended? = e.inbox.filterMap Message.ended? := by
  obtain ⟨message, panicking, rfl, hinbox⟩ | ⟨hinbox, -⟩ := takes.inbox_eq
  · cases message with
    | linkEvent generation event =>
      rw [hinbox]
      rfl
    | attemptFinished generation result =>
      obtain rfl : generation = e.manager.generation := (takes.expected horderly).1
      have hturn := horderly.sound.turn (.attemptFinished e.manager.generation result)
      exact absurd ongoing (hturn.over_of_report (ready_of_fits takes.fits) connecting hsame)
  · rw [hinbox]

theorem Flying.feed {before : Ensemble} {input : Input} (h : e.Flying)
    (takes : e.Takes before input) (horderly : Orderly e c) : (before.feed input).1.Flying := by
  intro connecting
  have hsound := horderly.sound
  obtain hstarted | ongoing := takes.started_or_ongoing hsound connecting
  · obtain ⟨effects, trigger, heffects⟩ := (hsound.turn input).exists_of_start hsound hstarted
    have hattempts : (before.feed input).1.attempts ≠ [] := by
      rw [feed_attempts, takes.manager_eq, heffects, List.foldl_append]
      simp [absorb]
    simp [outstanding, hattempts]
  · rw [feed_manager, takes.manager_eq] at connecting
    have hgeneration := ongoing.generation_eq
    rw [feed_manager, takes.manager_eq] at hgeneration
    have hended := takes.ended_eq horderly ongoing.connecting connecting hgeneration
    rw [outstanding, ongoing.attempts_eq, feed_inbox, hended]
    exact h ongoing.connecting

theorem Flying.after_move (h : e.Flying) (horderly : Orderly e c)
    {reaction : Ensemble × List Effect} (hmoved : e.Moved move reaction)
    (unpinned : move.pins = false) (intact : ∀ number, move ≠ .collapseOpen number) :
    reaction.1.Flying := by
  obtain ⟨before, input, hinput, takes, rfl⟩ | ⟨unseen, elsewhere⟩ := hmoved.takes_or_elsewhere
  · exact h.feed takes horderly
  · intro connecting
    rw [elsewhere.manager_eq] at connecting
    have hflying := h connecting
    cases hmoved with
    | refused | submitted | detached | elapsed | collapsed => exact hflying
    | vanished number => exact absurd rfl (intact number)
    | fastened => simp [Move.pins] at unpinned
    | answered number result attempt waits | timedOut number attempt waits =>
      rw [(horderly.alone waits.mem).endAttempt_eq waits.toCalls]
      simp [outstanding, Message.ended?]
    | reported number result attempt calls =>
      rw [(horderly.alone calls.mem).endAttempt_eq calls]
      simp [outstanding, Message.ended?]
    | called pinned before attempt after => simp [outstanding]
    | completed => simpa [outstanding] using hflying
    | passed link event task =>
      cases present : e.present <;>
        simpa [outstanding, passOn, LinkReader.pass, present, Message.ended?] using hflying
    | messaged | commanded | deserted | wrote | closed | expired => simp [Move.isSeen] at unseen

/-- The only attempt in flight has called the transport, if nobody can proceed. -/
theorem Quiescent.exists_attempt (quiet : e.Quiescent) (horderly : Orderly e c) (flying : e.Flying)
    (connecting : e.manager.phase = .connecting) :
    ∃ attempt number, e.attempts = [attempt] ∧ attempt.number = some number := by
  obtain hnone | ⟨hone, -, ready, present⟩ := horderly.expected
  · exact absurd hnone (flying connecting)
  · obtain ⟨hinbox, -, -⟩ := quiet.handled present ready
    obtain ⟨attempt, hattempts⟩ : ∃ attempt, e.attempts = [attempt] := by
      have hlength := congrArg List.length hone
      simp only [outstanding, hinbox, List.filterMap_nil, List.append_nil, List.length_map,
        List.length_singleton] at hlength
      exact List.length_eq_one_iff.mp hlength
    have hmem : attempt ∈ e.attempts := by simp [hattempts]
    obtain ⟨number, hnumber⟩ := quiet.called hmem
    exact ⟨attempt, number, hattempts, hnumber⟩

theorem Quiescent.engaged (quiet : e.Quiescent) (horderly : Orderly e c) : e.Engaged := by
  refine ⟨fun attempt hmem => Option.ne_none_iff_exists'.mpr (quiet.called hmem), ?_⟩
  obtain hnone | ⟨-, -, ready, present⟩ := horderly.expected
  · exact (List.append_eq_nil_iff.mp hnone).2
  · rw [(quiet.handled present ready).1]
    rfl

theorem Engaged.after_move (h : e.Engaged) {reaction : Ensemble × List Effect}
    (hmoved : e.Moved move reaction) (outside : move.isOutside = true) : reaction.1.Engaged := by
  cases hmoved with
  | refused | submitted | detached => exact h
  | completed number result =>
    refine ⟨fun attempt hmem => ?_, h.2⟩
    obtain ⟨earlier, hearlier, rfl⟩ := List.mem_map.mp hmem
    rw [earlier.complete_number result]
    exact h.1 earlier hearlier
  | _ => cases outside

/-- At an instant at which nobody can proceed, and after moves that nobody has acted on since, time
passes as it should. -/
theorem Quiescent.paced_of_run (quiet : e.Quiescent) (horderly : Orderly e c)
    (hrun : e.run moves = some (last, effects))
    (outside : ∀ move ∈ moves, move.isOutside = true) {span : Nat}
    (within : ∀ attempt ∈ last.attempts, ∀ deadline, attempt.deadline = some deadline →
      last.clock + span ≤ deadline + slack) : last.Paced slack (.elapse span) := by
  have hengaged : last.Engaged := by
    clear within
    induction moves using List.reverseRecOn generalizing last effects with
    | nil =>
      obtain ⟨rfl, -⟩ := Prod.mk.inj (Option.some.inj hrun)
      exact quiet.engaged horderly
    | append_singleton moves move ih =>
      obtain ⟨mid, first, later, hmoves, hmove, -⟩ := exists_of_run_concat hrun
      have hearlier := ih hmoves fun other hmem => outside other (List.mem_append_left _ hmem)
      exact hearlier.after_move (moved hmove) (outside move (by simp))
  exact fun _ => ⟨hengaged, within⟩

/-- After every run in which no attempt breaks down, there is an attempt while the manager waits for
one. -/
theorem flying_of_run (hrun : (ofSettings settings).run moves = some (last, effects))
    (unpinned : ∀ move ∈ moves, move.pins = false) :
    (∀ number, .collapseOpen number ∉ moves) → last.Flying := by
  refine orderly_induction (motive := fun moves last =>
    (∀ number, .collapseOpen number ∉ moves) → last.Flying) ?_ ?_ hrun unpinned
  · intro _ connecting
    simp [ofSettings] at connecting
  · intro moves mid first move next later c _ _ hpins horderly ih hmove intact
    have hflying := ih fun number hmem => intact number (List.mem_append_left _ hmem)
    refine hflying.after_move horderly (moved hmove) hpins ?_
    rintro number rfl
    exact intact number (by simp)

/-! ## Since when the present attempt is in flight -/

/-- The present attempt was announced at a time from which its limit counts. Its callers have asked
for it since, or have waited for the attempt before and were carried over. -/
structure InTime (limit slack : Nat) (heard : List (Nat × Command)) (e : Ensemble) (began : Nat) :
    Prop where
  began_le : began ≤ e.clock
  clock_le : e.clock ≤ began + limit + slack
  uncalled : ∀ attempt ∈ e.attempts, attempt.number = none → e.clock = began
  called : ∀ attempt ∈ e.attempts, attempt.number ≠ none →
    attempt.deadline = some (began + limit)
  waits : ∀ waiter ∈ e.manager.waiters, ∃ time, (time, .connect waiter.call) ∈ heard ∧
    began ≤ time + if waiter.retried then limit + slack else 0

/-- While the manager waits for an attempt, that was announced last and is in time. -/
def Punctual (limit slack : Nat) (past : List (Nat × Effect)) (heard : List (Nat × Command))
    (e : Ensemble) : Prop :=
  e.manager.phase = .connecting →
    ∃ began, lastTime Effect.isAnnouncement past = some began ∧ e.InTime limit slack heard began

variable {past : List (Nat × Effect)} {heard : List (Nat × Command)} {began : Nat}

/-- An attempt that has just been started is in time. -/
theorem Punctual.inTime_of_start (h : e.Punctual limit slack past heard) {before : Ensemble}
    {input : Input} (takes : e.Takes before input) (hsound : e.manager.Sound)
    (horderly : Orderly (before.feed input).1 c)
    (hstarted : .startAttempt (before.feed input).1.manager.generation ∈
      (e.manager.step input).2) :
    (before.feed input).1.InTime limit slack
      (heard ++ (e.manager.heard input).toList.map (e.clock, ·)) e.clock := by
  have hturn := hsound.turn input
  have hclock : (before.feed input).1.clock = e.clock :=
    (feed_clock_limit before input).1.trans takes.clock_eq
  obtain ⟨effects, trigger, heffects⟩ := hturn.exists_of_start hsound hstarted
  have hattempts : (before.feed input).1.attempts =
      [{ generation := (before.feed input).1.manager.generation }] := by
    refine (horderly.alone ?_).attempts_eq
    rw [feed_attempts, takes.manager_eq, heffects, List.foldl_append]
    simp [absorb]
  refine ⟨Nat.le_of_eq hclock.symm, by omega, fun _ _ _ => hclock, ?_, fun waiter hmem => ?_⟩
  · simp [hattempts]
  · rw [feed_manager, takes.manager_eq] at hmem
    obtain ⟨hheard, hfirst⟩ | ⟨hretried, connecting, earlier, hwaits, hcall, hfirst⟩ :=
      hturn.waits_at_start hsound hstarted hmem
    · exact ⟨e.clock, by simp [hheard], by simp [hfirst]⟩
    · -- the attempt before was in time until now
      obtain ⟨began, -, hintime⟩ := h connecting
      obtain ⟨time, htime, hbegan⟩ := hintime.waits earlier hwaits
      have hclock := hintime.clock_le
      rw [hfirst] at hbegan
      refine ⟨time, List.mem_append_left _ (hcall ▸ htime), ?_⟩
      simp only [hretried, if_true]
      simp only [Bool.false_eq_true, if_false] at hbegan
      omega

/-- An attempt that goes on is in time, and so are the callers who join it. -/
theorem InTime.of_ongoing (h : e.InTime limit slack heard began) {input : Input}
    (ongoing : e.Ongoing next input) (hclock : next.clock = e.clock) :
    next.InTime limit slack (heard ++ (e.manager.heard input).toList.map (e.clock, ·)) began := by
  refine ⟨hclock ▸ h.began_le, hclock ▸ h.clock_le, ?_, ?_, fun waiter hmem => ?_⟩
  · rw [ongoing.attempts_eq, hclock]
    exact h.uncalled
  · rw [ongoing.attempts_eq]
    exact h.called
  · rw [ongoing.waiters_eq, List.mem_append] at hmem
    obtain hearlier | hjoined := hmem
    · obtain ⟨time, htime, hbegan⟩ := h.waits waiter hearlier
      exact ⟨time, List.mem_append_left _ htime, hbegan⟩
    · obtain ⟨call, hcall, rfl⟩ := List.mem_map.mp hjoined
      obtain ⟨command, hcommand, hcaller⟩ := List.mem_filterMap.mp hcall
      obtain rfl : command = .connect call := by
        cases command <;> simp_all [Command.caller?]
      have hnow : (e.clock, .connect call) ∈ (e.manager.heard input).toList.map (e.clock, ·) :=
        List.mem_map_of_mem hcommand
      exact ⟨e.clock, List.mem_append_right _ hnow, Nat.le_add_right_of_le h.began_le⟩

theorem Punctual.feed (h : e.Punctual limit slack past heard) {before : Ensemble} {input : Input}
    (takes : e.Takes before input) (hsound : e.manager.Sound)
    (horderly : Orderly (before.feed input).1 c) :
    (before.feed input).1.Punctual limit slack
      (past ++ (e.manager.step input).2.map (e.clock, ·))
      (heard ++ (e.manager.heard input).toList.map (e.clock, ·)) := by
  intro connecting
  obtain hstarted | ongoing := takes.started_or_ongoing hsound connecting
  · obtain ⟨effects, trigger, heffects⟩ :=
      (hsound.turn input).exists_of_start hsound hstarted
    have hannounced : .emit (.connecting (before.feed input).1.manager.generation trigger) ∈
        (e.manager.step input).2 := by simp [heffects]
    exact ⟨e.clock, lastTime_of_mem hannounced rfl,
      h.inTime_of_start takes hsound horderly hstarted⟩
  · obtain ⟨began, hlast, hintime⟩ := h ongoing.connecting
    exact ⟨began, (lastTime_of_forall ongoing.unannounced).trans hlast,
      hintime.of_ongoing ongoing ((feed_clock_limit before input).1.trans takes.clock_eq)⟩

/-- Nothing but the calls and the limits of the attempts in flight matters. -/
theorem InTime.of_attempts (h : e.InTime limit slack heard began)
    (hmanager : next.manager = e.manager) (hclock : next.clock = e.clock)
    (hattempts : ∀ attempt ∈ next.attempts, ∃ earlier ∈ e.attempts,
      attempt.number = earlier.number ∧ attempt.deadline = earlier.deadline) :
    next.InTime limit slack heard began := by
  refine ⟨hclock ▸ h.began_le, hclock ▸ h.clock_le, fun attempt hmem hnone => ?_,
    fun attempt hmem hcalled => ?_, hmanager ▸ h.waits⟩ <;>
    obtain ⟨earlier, hearlier, hnumber, hdeadline⟩ := hattempts attempt hmem
  · exact hclock ▸ h.uncalled earlier hearlier (hnumber ▸ hnone)
  · exact hdeadline ▸ h.called earlier hearlier (hnumber ▸ hcalled)

theorem InTime.of_subset (h : e.InTime limit slack heard began)
    (hmanager : next.manager = e.manager) (hclock : next.clock = e.clock)
    (hattempts : next.attempts ⊆ e.attempts) : next.InTime limit slack heard began :=
  h.of_attempts hmanager hclock fun attempt hmem => ⟨attempt, hattempts hmem, rfl, rfl⟩

theorem InTime.elapse (h : e.InTime limit slack heard began) (flying : e.Flying)
    (connecting : e.manager.phase = .connecting) {span : Nat}
    (paced : e.Paced slack (.elapse span)) :
    { e with clock := e.clock + span }.InTime limit slack heard began := by
  obtain ⟨⟨called, hended⟩, hspan⟩ := paced connecting
  -- the attempt that the manager waits for is in flight, and its limit counts already
  have hattempts : e.attempts ≠ [] := by
    have houtstanding := flying connecting
    rw [outstanding, hended, List.append_nil] at houtstanding
    exact fun hnone => houtstanding (by rw [hnone, List.map_nil])
  obtain ⟨attempt, hmem⟩ := List.exists_mem_of_ne_nil _ hattempts
  have hdeadline := h.called attempt hmem (called attempt hmem)
  exact ⟨Nat.le_add_right_of_le h.began_le, hspan attempt hmem _ hdeadline,
    fun other hother hnone => absurd hnone (called other hother), h.called, h.waits⟩

/-- The limit counts from the call to the transport, and no time has passed since the attempt was
announced. -/
theorem InTime.call (h : e.InTime limit slack heard began) (hlimit : e.limit = some limit)
    {pinned : Bool} {before after : List Attempt} {attempt : Attempt}
    (uncalled : attempt.number = none) (hattempts : e.attempts = before ++ attempt :: after) :
    { e with
      attempts := before ++
        { attempt with
          number := some e.opens, deadline := e.limit.map (e.clock + ·), pinned } :: after
      opens := e.opens + 1 }.InTime limit slack heard began := by
  have hclock : e.clock = began := h.uncalled attempt (by simp [hattempts]) uncalled
  refine ⟨h.began_le, h.clock_le, fun _ _ _ => hclock, fun other hmem hcalled => ?_, h.waits⟩
  have hcases : other ∈ e.attempts ∨ other.deadline = e.limit.map (e.clock + ·) := by
    obtain hbefore | hnow | hafter := by simpa using hmem
    · exact .inl (by simp [hattempts, hbefore])
    · exact .inr (by rw [hnow])
    · exact .inl (by simp [hattempts, hafter])
  obtain hearlier | hnow := hcases
  · exact h.called other hearlier hcalled
  · rw [hnow, hlimit, ← hclock]
    rfl

theorem Punctual.after_move (h : e.Punctual limit slack past heard) (horderly : Orderly e c)
    {reaction : Ensemble × List Effect} (hmoved : e.Moved move reaction) {c' : Custody}
    (hnext : Orderly reaction.1 c') (flying : e.Flying) (hlimit : e.limit = some limit)
    (paced : e.Paced slack move) :
    reaction.1.Punctual limit slack (past ++ reaction.2.map (e.clock, ·))
      (heard ++ ((e.inputOf move).bind e.manager.heard).toList.map (e.clock, ·)) := by
  obtain ⟨before, input, hinput, takes, rfl⟩ | ⟨unseen, elsewhere⟩ := hmoved.takes_or_elsewhere
  · rw [feed_snd, takes.manager_eq, hinput]
    exact h.feed takes horderly.sound hnext
  · intro connecting
    have hmanager := elsewhere.manager_eq
    rw [hmanager] at connecting
    obtain ⟨began, hlast, hintime⟩ := h connecting
    have hquiet : ∀ effect ∈ reaction.2, effect.isAnnouncement = false := by
      intro effect hmem
      obtain ⟨record, rfl⟩ | ⟨call, result, rfl⟩ := elsewhere.quiet effect hmem <;> rfl
    refine ⟨began, (lastTime_of_forall hquiet).trans hlast, ?_⟩
    rw [inputOf_of_unseen unseen]
    simp only [Option.bind_none, Option.toList_none, List.map_nil, List.append_nil]
    cases hmoved with
    | elapsed span => exact hintime.elapse flying connecting paced
    | called pinned before attempt after uncalled _ hattempts =>
      exact hintime.call hlimit uncalled hattempts
    | refused | submitted | detached | collapsed | fastened | passed =>
      exact hintime.of_subset rfl rfl (List.Subset.refl _)
    | vanished number =>
      exact hintime.of_subset rfl rfl fun attempt hmem => (List.mem_filter.mp hmem).1
    | completed number result =>
      refine hintime.of_attempts rfl rfl fun attempt hmem => ?_
      obtain ⟨earlier, hearlier, rfl⟩ := List.mem_map.mp hmem
      exact ⟨earlier, hearlier, earlier.complete_number result, earlier.complete_deadline result⟩
    | answered number result attempt waits | timedOut number attempt waits =>
      rw [(horderly.alone waits.mem).endAttempt_eq waits.toCalls]
      exact hintime.of_subset rfl rfl (List.nil_subset _)
    | reported number result attempt calls =>
      rw [(horderly.alone calls.mem).endAttempt_eq calls]
      exact hintime.of_subset rfl rfl (List.nil_subset _)
    | messaged | commanded | deserted | wrote | closed | expired => simp [Move.isSeen] at unseen

/-- While the manager waits for an attempt, that is in time, if time passes as it should. -/
theorem punctual_of_run (hlimit : settings.tuning.connectLimit = some limit)
    (hrun : (ofSettings settings).run moves = some (last, effects))
    (unpinned : ∀ move ∈ moves, move.pins = false) :
    (∀ number, .collapseOpen number ∉ moves) → (ofSettings settings).Paces slack moves →
      last.Punctual limit slack ((ofSettings settings).timeline moves)
        ((ofSettings settings).hearings moves) := by
  refine orderly_induction (motive := fun moves last =>
    (∀ number, .collapseOpen number ∉ moves) → (ofSettings settings).Paces slack moves →
      last.Punctual limit slack ((ofSettings settings).timeline moves)
        ((ofSettings settings).hearings moves)) ?_ ?_ hrun unpinned
  · intro _ _ connecting
    simp [ofSettings] at connecting
  · intro moves mid first move next later c hmoves hearlier hpins horderly ih hmove intact paces
    have hwhole : ∀ number, .collapseOpen number ∉ moves :=
      fun number hmem => intact number (List.mem_append_left _ hmem)
    obtain ⟨hpaces, hpaced⟩ := paces.of_concat hmoves
    have unpinned : ∀ other ∈ moves ++ [move], other.pins = false := by
      intro other hmem
      obtain hmem | hmem := List.mem_append.mp hmem
      · exact hearlier other hmem
      · exact List.mem_singleton.mp hmem ▸ hpins
    obtain ⟨c', hnext⟩ := orderly_of_run (run_concat hmoves hmove) unpinned
    have hhearings : (ofSettings settings).hearings (moves ++ [move]) =
        (ofSettings settings).hearings moves ++
          ((mid.inputOf move).bind mid.manager.heard).toList.map (mid.clock, ·) :=
      along_concat _ hmoves move
    rw [timeline_concat hmoves hmove, hhearings]
    exact (ih hwhole hpaces).after_move horderly (moved hmove) hnext
      (flying_of_run hmoves hearlier hwhole) ((limit_of_run hmoves).trans hlimit) hpaced

/-! ## The limits -/

/-- A call is handled once, if callers can be told apart. -/
theorem eq_of_mem_hearings (hrun : e.run moves = some (last, effects))
    (distinct : ((e.manager.handled (e.fed moves)).filterMap Command.caller?).Nodup)
    {call : CallId} {time other : Nat} (htime : (time, .connect call) ∈ e.hearings moves)
    (hother : (other, .connect call) ∈ e.hearings moves) : time = other := by
  rw [← map_snd_hearings hrun, List.filterMap_map] at distinct
  exact (Prod.mk.inj (eq_of_nodup_filterMap distinct htime hother rfl rfl)).1

/-- **Attempts and closes are limited.** Whenever nobody can proceed:

- While the manager waits for an attempt, the attempt was announced less than the limit ago; so an
  attempt that may take no time is not waited for. A caller who waits was heard less than twice the
  limit ago, and the time by which a limit was overrun. This is so as long as tasks that are given
  up do not go on, no attempt breaks down, and attempts make their calls, and their ends are
  handled, before time passes.
- While the manager waits for an attempt, it is not blocked.
- An attempt whose call was over before it gave up is reported, and announced if it failed, with the
  answer and not as one that has taken too long, even if its limit was reached before it got to see
  the answer. An attempt that has taken too long gave up when its limit was reached.
- A writer that is being closed was begun to be closed less than the grace ago. -/
theorem limits_kept (hrun : (ofSettings settings).run moves = some (last, effects))
    (quiet : last.Quiescent) :
    let start := ofSettings settings
    (∀ limit slack, settings.tuning.connectLimit = some limit →
      (∀ move ∈ moves, move.pins = false) → (∀ number, .collapseOpen number ∉ moves) →
      start.Paces slack moves →
      ((start.manager.handled (start.fed moves)).filterMap Command.caller?).Nodup →
      last.manager.phase = .connecting →
        0 < limit ∧
          (∃ began, lastTime Effect.isAnnouncement (start.timeline moves) = some began ∧
            began ≤ last.clock ∧ last.clock < began + limit) ∧
          ∀ call ∈ last.manager.waiting, ∃ time, (time, .connect call) ∈ start.hearings moves ∧
            (∀ other, (other, .connect call) ∈ start.hearings moves → other = time) ∧
            last.clock < time + 2 * limit + slack) ∧
      ((∀ move ∈ moves, move.pins = false) → last.manager.phase = .connecting →
        last.isBlocked = false) ∧
      ((∀ move ∈ moves, move.pins = false) → start.ReportsAnswers moves) ∧
      (last.isClosing = true →
        ∃ since, lastTime Effect.isClose (start.timeline moves) = some since ∧
          since ≤ last.clock ∧ last.clock < since + closeGrace) := by
  intro start
  refine ⟨?attempts, ?unblocked, ?answers, ?closes⟩
  case attempts =>
    intro limit slack hlimit unpinned intact paces distinct connecting
    obtain ⟨c, horderly⟩ := orderly_of_run hrun unpinned
    obtain ⟨attempt, number, hattempts, hnumber⟩ :=
      quiet.exists_attempt horderly (flying_of_run hrun unpinned intact) connecting
    obtain ⟨began, hlast, hintime⟩ :=
      punctual_of_run hlimit hrun unpinned intact paces connecting
    have hahead := quiet.not_reached hattempts
    rw [hintime.called attempt (by simp [hattempts]) (by simp [hnumber])] at hahead
    have hclock := lt_of_not_reached hahead
    have hbegan := hintime.began_le
    refine ⟨by omega, ⟨began, hlast, hbegan, hclock⟩, fun call hcall => ?_⟩
    obtain ⟨waiter, hwaiter, rfl⟩ := List.mem_map.mp hcall
    obtain ⟨time, htime, hwaits⟩ := hintime.waits waiter hwaiter
    refine ⟨time, htime, fun other hother => eq_of_mem_hearings hrun distinct hother htime, ?_⟩
    split at hwaits <;> omega
  case unblocked =>
    intro unpinned connecting
    simp [isBlocked, isWriting, isClosing, ready_of_run hrun unpinned connecting]
  case answers =>
    intro unpinned
    exact reportsAnswers_of_run hrun unpinned
  case closes =>
    intro closing
    obtain ⟨since, hsince, hlast, -, hlt⟩ :=
      (closesInTime_of_run hrun).lt_of_quiescent quiet closing
    exact ⟨since, hlast, hsince, hlt⟩

/-- The first attempt fails, and sees so only after its limit is reached. A caller joins the second,
which takes two units longer than its limit. The third one is in flight for nine units when the
caller waits for seventeen. -/
theorem limits_kept_retried :
    let settings : Settings := { tuning := { connectLimit := some 10 } }
    let start := ofSettings settings
    let moves : List Move := [.submit (.connect 0), .handle [], .callOpen false, .elapse 4,
      .completeOpen 0 (.error .connectionClosed), .elapse 8,
      .reportOpen 0 (.error .connectionClosed), .handle [], .submit (.connect 1), .handle [],
      .callOpen false, .submit (.connect 2), .elapse 4, .handle [], .elapse 8, .expireOpen 1,
      .handle [], .callOpen false, .elapse 9]
    ∃ last effects, start.run moves = some (last, effects) ∧ last.Quiescent ∧
      last.manager.waiting = [2] ∧ last.isBlocked = false ∧
      (∃ began, lastTime Effect.isAnnouncement (start.timeline moves) = some began ∧
        began ≤ last.clock ∧ last.clock < began + 10) ∧
      (∃ time, (time, .connect 2) ∈ start.hearings moves ∧ last.clock < time + 2 * 10 + 2) ∧
      (∀ other, (1, other) ∈ start.reported moves → other = .error .connectionClosed) ∧
      (2, .error .connectTimeout) ∈ start.reported moves ∧ start.Overdue moves 2 := by
  intro settings start moves
  have hpossible : (start.run moves).map (fun made =>
      (made.1.isStill, made.1.manager.phase, made.1.manager.waiting)) =
        some (true, .connecting, [2]) := by decide +kernel
  obtain ⟨⟨last, effects⟩, hrun, hlast⟩ := Option.map_eq_some_iff.mp hpossible
  simp only [Prod.mk.injEq] at hlast
  obtain ⟨hstill, connecting, hwaiting⟩ := hlast
  have quiet := quiescent_of_isStill hstill
  have paces : start.Paces 2 moves := paces_of_keepsPace (by decide +kernel)
  obtain ⟨hlimits, hunblocked, hanswers, -⟩ := limits_kept hrun quiet
  have unpinned : ∀ move ∈ moves, move.pins = false := by decide
  obtain ⟨-, hbegan, hcalls⟩ := hlimits 10 2 rfl unpinned (fun number => by simp [moves]) paces
    (by decide +kernel) connecting
  have hready := hunblocked unpinned connecting
  obtain ⟨time, htime, -, hclock⟩ := hcalls 2 (by simp [hwaiting])
  have hreports := hanswers unpinned
  have hcompletions : start.completions moves = [(4, 1, .error .connectionClosed)] := by
    decide +kernel
  have hreported : (2, .error .connectTimeout) ∈ start.reported moves := by decide +kernel
  refine ⟨last, effects, hrun, quiet, hwaiting, hready, hbegan, ⟨time, htime, hclock⟩, ?_,
    hreported, ?_⟩
  · exact hreports.reported 4 1 _ (hcompletions ▸ List.mem_singleton_self _)
  · obtain ⟨time, hanswered⟩ | ⟨-, hoverdue⟩ := hreports.overdue 2 _ hreported
    · rw [show (ofSettings settings).completions moves = _ from hcompletions] at hanswered
      simp at hanswered
    · exact hoverdue

/-- If much time passes in one go, an attempt is over its limit before that is noticed, and a caller
who joined it waits for the next one far longer than twice the limit. An attempt that breaks down is
waited for when its limit is reached. -/
theorem limits_overrun :
    let start := ofSettings { tuning := { connectLimit := some 10 } }
    let late : List Move := [.submit (.connect 0), .handle [], .callOpen false,
      .submit (.connect 1), .handle [], .elapse 1000, .expireOpen 0, .handle [], .callOpen false]
    let broken : List Move := [.submit (.connect 0), .handle [], .callOpen false, .collapseOpen 0,
      .elapse 10]
    (∃ last effects, start.run late = some (last, effects) ∧ start.Paces 990 late ∧
      last.Quiescent ∧ last.manager.phase = .connecting ∧ last.manager.waiting = [1] ∧
      (0, .connect 1) ∈ start.hearings late ∧ ¬ last.clock < 0 + 2 * 10) ∧
    ∃ last effects, start.run broken = some (last, effects) ∧ start.Paces 0 broken ∧
      last.Quiescent ∧ last.manager.phase = .connecting ∧
      lastTime Effect.isAnnouncement (start.timeline broken) = some 0 ∧ ¬ last.clock < 0 + 10 := by
  intro start late broken
  refine ⟨?_, ?_⟩
  · have hpossible : (start.run late).map (fun made => (made.1.isStill, made.1.manager.phase,
        made.1.manager.waiting, made.1.clock)) = some (true, .connecting, [1], 1000) := by
      decide +kernel
    obtain ⟨⟨last, effects⟩, hrun, hlast⟩ := Option.map_eq_some_iff.mp hpossible
    simp only [Prod.mk.injEq] at hlast
    obtain ⟨hstill, connecting, hwaiting, hclock⟩ := hlast
    exact ⟨last, effects, hrun, paces_of_keepsPace (by decide +kernel),
      quiescent_of_isStill hstill, connecting, hwaiting, by decide +kernel, by omega⟩
  · have hpossible : (start.run broken).map (fun made => (made.1.isStill, made.1.manager.phase,
        made.1.clock)) = some (true, .connecting, 10) := by decide +kernel
    obtain ⟨⟨last, effects⟩, hrun, hlast⟩ := Option.map_eq_some_iff.mp hpossible
    simp only [Prod.mk.injEq] at hlast
    obtain ⟨hstill, connecting, hclock⟩ := hlast
    exact ⟨last, effects, hrun, paces_of_keepsPace (by decide +kernel),
      quiescent_of_isStill hstill, connecting, by decide +kernel, by omega⟩

end Ensemble

end PersistentLink
