import PersistentLink.Proofs.Ensemble.Moves
import PersistentLink.Proofs.Manager.Journal

/-!
# Who owns a link

A link belongs to the attempt that asked for it, then to the manager, and then it is closed. As long
as no task goes on after it was given up, there is one attempt at a time and one link at a time, and
each link is closed once.

A move enters in the journal what the transport and the writers do, and after it what the manager
does. Between two moves the journal, the manager and the messages that wait agree on which link is
not closed; every move that is possible keeps it so.

## Main definitions

- `Ensemble.journal`: what is done with links in a run
- `Ensemble.outstanding`: attempts whose end has not been handled
- `Ensemble.Orderly`: what the journal says between two moves
- `Ensemble.Releases`: links are owned by one party at a time, and released once

## Main results

- `Ensemble.Orderly.exists_feed`: what the manager does keeps the journal proper
- `Ensemble.Orderly.proceeds`: a move keeps the journal proper
- `Ensemble.links_released_once`: every run releases its links once
-/

namespace PersistentLink

namespace Move

/-- Whether a task can go on after it was given up, because of a move. -/
def pins : Move → Bool
  | callOpen pinned => pinned
  | pinReader _ => true
  | _ => false

/-- The link that the transport hands over. -/
def link? : Move → Option LinkId
  | answerOpen _ (.ok link) | reportOpen _ (.ok link) => some link
  | _ => none

end Move

namespace Ensemble

open Manager Deed

/-! ## Tasks that are given up, and the limit of a close -/

/-- Attempts end when they are given up, if none is pinned. -/
theorem attempts_foldl_absorb_of_abandon {e : Ensemble} {effects : List Effect}
    (unpinned : ∀ attempt ∈ e.attempts, attempt.pinned = false)
    (hnone : Effect.attempts effects = []) (hmem : .abandonAttempt ∈ effects) :
    (effects.foldl absorb e).attempts = [] := by
  induction effects generalizing e with
  | nil => simp at hmem
  | cons effect rest ih =>
    rw [Effect.attempts, Effect.seen_cons, List.append_eq_nil_iff] at hnone
    obtain rfl | hlater := List.mem_cons.mp hmem
    · have hleft : (e.absorb .abandonAttempt).attempts = [] := by
        simpa [absorb, List.filter_eq_nil_iff] using unpinned
      have hsub := generations_foldl_absorb_sublist (e.absorb .abandonAttempt) rest
      simpa [hleft, hnone.2] using hsub
    · refine ih (fun attempt hattempt => ?_) hnone.2 hlater
      cases effect with
      | startAttempt => simp [Effect.attempt?] at hnone
      | abandonAttempt => exact unpinned attempt (List.mem_filter.mp hattempt).1
      | _ => exact unpinned attempt hattempt

/-- The closing of a writer has a limit from its beginning. -/
theorem closeDeadline_foldl_absorb (e : Ensemble) (effects : List Effect) :
    (effects.foldl absorb e).closeDeadline =
      if Effect.closings effects = [] then e.closeDeadline else some (e.clock + closeGrace) := by
  induction effects generalizing e with
  | nil => rfl
  | cons effect rest ih =>
    rw [List.foldl_cons, ih]
    cases effect <;> simp [absorb, Effect.closings, Effect.closing?]

/-! ## The journal of a run -/

/-- The entry that a move makes in the journal, before what the manager does. -/
def deedOf (e : Ensemble) : Move → Option Deed
  | .callOpen _ => (e.attempts.find? (·.number.isNone)).map (Deed.called ·.generation)
  | .answerOpen _ (.ok link) | .reportOpen _ (.ok link) => some (.handed link)
  | .written (.error _) => e.manager.writer.map Deed.unwritten
  | .closed (.ok _) => some (.closed .done e.clock)
  | .closed (.error error) => some (.closed (.failed error) e.clock)
  | .closeExpired => some (.closed .timedOut e.clock)
  | _ => none

/-- The journal of a run. -/
def journal (e : Ensemble) : List Move → List Deed
  | [] => []
  | move :: rest =>
    match e.move move with
    | some (next, effects) =>
      (e.deedOf move).toList ++ Effect.deeds e.clock effects ++ next.journal rest
    | none => []

/-- The generations of the attempts that are in flight or whose end has not been handled. -/
def outstanding (e : Ensemble) : List Nat :=
  e.attempts.map (·.generation) ++ e.inbox.filterMap Message.ended?

/-- What the journal says between two moves. -/
structure Orderly (e : Ensemble) (c : Custody) : Prop where
  sound : e.manager.Sound
  unpinned : ∀ attempt ∈ e.attempts, attempt.pinned = false
  /-- one attempt at most is outstanding, and the manager waits for it -/
  expected : e.outstanding = [] ∨ e.outstanding = [e.manager.generation] ∧
    e.manager.phase = .connecting ∧ e.manager.activity = .ready ∧ e.present = true
  awaited : ∀ attempt ∈ e.attempts, attempt.number = none → c.awaited = some attempt.generation
  generation_le : c.generation ≤ e.manager.generation
  /-- the link that is not closed is on its way to the manager, or held by it -/
  link_eq : c.link.toList = e.inbox.filterMap Message.link? ++ e.manager.writer.toList
  unspoiled : c.link ≠ none → c.spoiled = false
  settled : e.manager.isReleasing = false → c.since = none
  releasing : e.manager.isReleasing = true →
    ∃ since, c.since = some since ∧ e.closeDeadline = some (since + closeGrace)

variable {e : Ensemble} {c : Custody} {past : List Deed} {input : Input}

/-- Before an input is handled, nothing is outstanding but perhaps an attempt, while an order is
handled. -/
def Expects (e : Ensemble) (input : Input) : Prop :=
  e.outstanding = [] ∨
    e.outstanding = [e.manager.generation] ∧ e.manager.phase = .connecting ∧
      e.manager.activity = .ready ∧ e.inbox = [] ∧
      ((∃ command, input = .command command) ∨ input = .commandsEnded)

theorem Expects.after_feed (h : e.Expects input) (hsound : e.manager.Sound)
    (unpinned : ∀ attempt ∈ e.attempts, attempt.pinned = false) (present : e.present = true) :
    (e.feed input).1.outstanding = [] ∨
      (e.feed input).1.outstanding = [(e.manager.step input).1.generation] ∧
        (e.manager.step input).1.phase = .connecting ∧
        (e.manager.step input).1.activity = .ready ∧ (e.feed input).1.present = true := by
  have hturn := hsound.turn input
  have hpresent (ready : (e.manager.step input).1.activity = .ready) :
      (e.feed input).1.present = true := by
    simp [feed_present, present, ready]
  obtain houtstanding | ⟨houtstanding, connecting, ready, hinbox, order⟩ := h
  · have hinbox := (List.append_eq_nil_iff.mp houtstanding).2
    have hsub := generations_foldl_absorb_sublist
      { e with manager := (e.manager.step input).1 } (e.manager.step input).2
    rw [(List.append_eq_nil_iff.mp houtstanding).1, List.nil_append] at hsub
    have hafter : (e.feed input).1.outstanding =
        (e.feed input).1.attempts.map (·.generation) := by
      rw [outstanding, feed_inbox, hinbox, List.append_nil]
    rw [hafter]
    -- whatever is in flight now was started by this step, which starts one attempt at most
    obtain hnone | ⟨hone, hgeneration, connecting, ready⟩ := hturn.attempts_eq
    · rw [hnone] at hsub
      exact .inl (List.sublist_nil.mp hsub)
    · rw [hone] at hsub
      obtain hgone | hstarted := List.sublist_singleton.mp hsub
      · exact .inl hgone
      · exact .inr ⟨hgeneration ▸ hstarted, connecting, ready, hpresent ready⟩
  · obtain ⟨hnone, ⟨hgeneration, hphase, hready, habsorb⟩ | habandoned⟩ :=
      hturn.of_order hsound connecting ready order
    · -- the attempt stays in flight
      have hafter : (e.feed input).1.outstanding = e.outstanding := by
        rw [outstanding, feed_inbox, feed_attempts, habsorb]
        rfl
      rw [hafter, houtstanding, hgeneration]
      exact .inr ⟨rfl, hphase, hready, hpresent hready⟩
    · left
      have hattempts : (e.feed input).1.attempts = [] :=
        attempts_foldl_absorb_of_abandon
          (e := { e with manager := (e.manager.step input).1 }) unpinned hnone habandoned
      rw [outstanding, hattempts, feed_inbox, hinbox]
      rfl

/-- Feeding the manager keeps the journal proper. -/
theorem Orderly.exists_feed (hawaits : e.manager.Awaits input c) (kept : Kept past c)
    (unpinned : ∀ attempt ∈ e.attempts, attempt.pinned = false)
    (awaited : ∀ attempt ∈ e.attempts, attempt.number = none →
      c.awaited = some attempt.generation)
    (present : e.present = true) (hlinks : e.inbox.filterMap Message.link? = [])
    (hexpects : e.Expects input) :
    ∃ next, Kept (past ++ Effect.deeds e.clock (e.feed input).2) next ∧
      Orderly (e.feed input).1 next := by
  have hsound := hawaits.sound
  have hturn := hsound.turn input
  obtain ⟨next, hkept, hagrees, hawaited, hclosings⟩ := hturn.exists_keeps hawaits kept
  have hstarted {attempt : Attempt} (hmem : attempt ∈ (e.feed input).1.attempts) :
      attempt ∈ e.attempts ∨
        ∃ generation ∈ Effect.attempts (e.manager.step input).2, attempt = { generation } :=
    of_mem_attempts_foldl_absorb (e := { e with manager := (e.manager.step input).1 }) hmem
  refine ⟨next, hkept, ?_⟩
  constructor
  · rw [feed_manager]
    exact hsound.step input
  · intro attempt hmem
    obtain hearlier | ⟨generation, -, rfl⟩ := hstarted hmem
    · exact unpinned attempt hearlier
    · rfl
  · rw [feed_manager]
    exact hexpects.after_feed hsound unpinned present
  · intro attempt hmem huncalled
    obtain hearlier | ⟨generation, hnow, rfl⟩ := hstarted hmem
    · -- an attempt from before is still the one that was announced last
      have hnone : Effect.attempts (e.manager.step input).2 = [] := by
        obtain houtstanding | ⟨-, connecting, ready, -, order⟩ := hexpects
        · simp [outstanding, List.ne_nil_of_mem hearlier] at houtstanding
        · exact (hturn.of_order hsound connecting ready order).1
      obtain ⟨-, hsame⟩ | ⟨hone, -⟩ := hawaited
      · rw [hsame]
        exact awaited attempt hearlier huncalled
      · simp [hnone] at hone
    · obtain ⟨hnone, -⟩ | ⟨hone, hnext⟩ := hawaited
      · simp [hnone] at hnow
      · rw [hone, List.mem_singleton] at hnow
        rw [hnext, hnow]
  · rw [feed_manager]
    exact hagrees.generation_le
  · rw [feed_manager, feed_inbox, hlinks, hagrees.link_eq, List.nil_append]
  · exact hagrees.unspoiled
  · rw [feed_manager]
    intro settled
    simp [hagrees.since_eq, settled]
  · rw [feed_manager]
    intro releasing
    refine ⟨e.clock, by simp [hagrees.since_eq, releasing], ?_⟩
    have hdeadline := closeDeadline_foldl_absorb
      { e with manager := (e.manager.step input).1 } (e.manager.step input).2
    rw [if_neg (hclosings releasing)] at hdeadline
    exact hdeadline

/-! ## One move -/

theorem links_eq_nil {messages : List Message} (h : messages.filterMap Message.ended? = []) :
    messages.filterMap Message.link? = [] := by
  rw [List.filterMap_eq_nil_iff] at h ⊢
  intro message hmem
  have hnone := h message hmem
  cases message with
  | attemptFinished => simp [Message.ended?] at hnone
  | linkEvent => rfl

/-- While an attempt is in flight there is nothing else. -/
structure Alone (e : Ensemble) (c : Custody) (attempt : Attempt) : Prop where
  attempts_eq : e.attempts = [attempt]
  ended_eq : e.inbox.filterMap Message.ended? = []
  generation_eq : e.manager.generation = attempt.generation
  connecting : e.manager.phase = .connecting
  ready : e.manager.activity = .ready
  present : e.present = true
  link_eq : c.link = none
  since_eq : c.since = none

theorem Orderly.writer_eq_none (h : Orderly e c) (connecting : e.manager.phase = .connecting)
    (ready : e.manager.activity = .ready) : e.manager.writer = none :=
  ((h.sound.settled ready).unlinked (by rw [connecting]; decide)).1

theorem Orderly.alone (h : Orderly e c) {attempt : Attempt} (hmem : attempt ∈ e.attempts) :
    e.Alone c attempt := by
  obtain ⟨before, after, hattempts⟩ := List.append_of_mem hmem
  obtain hnone | ⟨hone, connecting, ready, present⟩ := h.expected
  · simp [outstanding, hattempts] at hnone
  · obtain ⟨rfl, rfl, hgeneration, hended⟩ : before = [] ∧ after = [] ∧
        attempt.generation = e.manager.generation ∧
        e.inbox.filterMap Message.ended? = [] := by
      cases before <;> simp_all [outstanding]
    have hlinks := h.link_eq
    rw [links_eq_nil hended, h.writer_eq_none connecting ready] at hlinks
    exact ⟨hattempts, hended, hgeneration.symm, connecting, ready, present, by simpa using hlinks,
      h.settled (isReleasing_of_ready ready)⟩

/-- The entries of a move are proper, and the journal is orderly after it. -/
def Proceeds (past : List Deed) (made : List Deed) (next : Ensemble) : Prop :=
  ∃ c, Kept (past ++ made) c ∧ Orderly next c

/-- An input is handled while nothing is outstanding. -/
theorem proceeds_of_awaits (hawaits : e.manager.Awaits input c) (kept : Kept past c)
    (present : e.present = true) (hnone : e.outstanding = []) :
    Proceeds past (Effect.deeds e.clock (e.feed input).2) (e.feed input).1 := by
  obtain ⟨hattempts, hended⟩ := List.append_eq_nil_iff.mp hnone
  rw [List.map_eq_nil_iff] at hattempts
  exact Orderly.exists_feed hawaits kept (by simp [hattempts]) (by simp [hattempts]) present
    (links_eq_nil hended) (.inl hnone)

/-- The end of an attempt is handled while nothing else is outstanding. -/
theorem Orderly.messaged_ended (h : Orderly e c) (kept : Kept past c) {generation : Nat}
    {result : Except Failure LinkId} {rest : List Message} (present : e.present = true)
    (ready : e.manager.activity = .ready)
    (first : e.inbox = .attemptFinished generation result :: rest) :
    Proceeds past
      (Effect.deeds e.clock ({ e with inbox := rest }.feed (.attemptFinished generation result)).2)
      ({ e with inbox := rest }.feed (.attemptFinished generation result)).1 := by
  obtain hnone | ⟨hone, connecting, -, -⟩ := h.expected
  · simp [outstanding, first, Message.ended?] at hnone
  · obtain ⟨hattempts, hgeneration, hended⟩ : e.attempts = [] ∧
        generation = e.manager.generation ∧ rest.filterMap Message.ended? = [] := by
      cases hattempts : e.attempts <;> simp_all [outstanding, Message.ended?]
    have hrest := links_eq_nil hended
    have hlinks : c.link.toList =
        (Input.attemptFinished generation result).link?.toList ++ e.manager.writer.toList := by
      have hcons : e.inbox.filterMap Message.link? =
          (Input.attemptFinished generation result).link?.toList := by
        rw [first]
        cases result with
        | ok link => exact congrArg (link :: ·) hrest
        | error => exact hrest
      rw [h.link_eq, hcons]
    have hawaits : e.manager.Awaits (.attemptFinished generation result) c :=
      { sound := h.sound
        fits := by simp [fits, ready]
        generation_le := h.generation_le
        link_eq := hlinks
        unspoiled := fun hne _ => h.unspoiled hne
        since_eq := h.settled (isReleasing_of_ready ready)
        timely := fun other _ hinput => by
          obtain ⟨rfl, -⟩ := Input.attemptFinished.inj hinput
          exact ⟨hgeneration, connecting⟩ }
    refine proceeds_of_awaits (e := { e with inbox := rest }) hawaits kept present ?_
    simp [outstanding, hattempts, hended]

/-- An event of a link is handled, whether an attempt is in flight or not. -/
theorem Orderly.messaged_event (h : Orderly e c) (kept : Kept past c) {generation : Nat}
    {event : LinkEvent} {rest : List Message} (panicking : List ObserverId)
    (present : e.present = true) (ready : e.manager.activity = .ready)
    (first : e.inbox = .linkEvent generation event :: rest) :
    Proceeds past
      (Effect.deeds e.clock
        ({ e with inbox := rest }.feed (.linkEvent generation event panicking)).2)
      ({ e with inbox := rest }.feed (.linkEvent generation event panicking)).1 := by
  have hsame : { e with inbox := rest }.outstanding = e.outstanding := by
    rw [outstanding, outstanding, first]
    rfl
  have hlinks : e.inbox.filterMap Message.link? = rest.filterMap Message.link? := by
    rw [first]
    rfl
  obtain hnone | ⟨hone, connecting, -, -⟩ := h.expected
  · have hended : rest.filterMap Message.ended? = [] := by
      rw [← hsame] at hnone
      exact (List.append_eq_nil_iff.mp hnone).2
    have hrest := links_eq_nil hended
    have hawaits : e.manager.Awaits (.linkEvent generation event panicking) c :=
      { sound := h.sound
        fits := by simp [fits, ready]
        generation_le := h.generation_le
        link_eq := by rw [h.link_eq, hlinks, hrest]; rfl
        unspoiled := fun hne _ => h.unspoiled hne
        since_eq := h.settled (isReleasing_of_ready ready)
        timely := by simp }
    exact proceeds_of_awaits (e := { e with inbox := rest }) hawaits kept present
      (hsame.trans hnone)
  · -- the manager goes on waiting for the attempt
    have hturn := h.sound.turn (.linkEvent generation event panicking)
    obtain ⟨hmanager, hdeeds, habsorb⟩ := hturn.of_linkEvent e.clock connecting
    have hfeed : ({ e with inbox := rest }.feed (.linkEvent generation event panicking)).1 =
        { e with inbox := rest } := by
      simp only [Ensemble.feed, habsorb, hmanager]
      simp [ready]
    rw [hfeed, feed_snd, hdeeds, Proceeds, List.append_nil]
    exact ⟨c, kept, { h with
      expected := by rw [hsame]; exact h.expected
      link_eq := by rw [← hlinks]; exact h.link_eq }⟩

/-- An order is handled once no message waits. -/
theorem Orderly.ordered (h : Orderly e c) (kept : Kept past c) (present : e.present = true)
    (ready : e.manager.activity = .ready) (silent : e.inbox = [])
    (order : (∃ command, input = .command command) ∨ input = .commandsEnded) :
    Proceeds past (Effect.deeds e.clock (e.feed input).2) (e.feed input).1 := by
  have hinput : input.link? = none ∧
      (∀ generation result, input ≠ .attemptFinished generation result) ∧
      e.manager.fits input = true := by
    obtain ⟨command, rfl⟩ | rfl := order <;> simp [Input.link?, fits, ready]
  have hawaits : e.manager.Awaits input c :=
    { sound := h.sound
      fits := hinput.2.2
      generation_le := h.generation_le
      link_eq := by simp [h.link_eq, silent, hinput.1]
      unspoiled := fun hne _ => h.unspoiled hne
      since_eq := h.settled (isReleasing_of_ready ready)
      timely := fun generation result heq => absurd heq (hinput.2.1 generation result) }
  refine Orderly.exists_feed hawaits kept h.unpinned h.awaited present (by simp [silent]) ?_
  obtain hnone | ⟨hone, connecting, -, -⟩ := h.expected
  · exact .inl hnone
  · exact .inr ⟨hone, connecting, ready, silent, order⟩

/-- Nothing is outstanding while the manager is busy. -/
theorem Orderly.outstanding_eq_nil (h : Orderly e c) (busy : e.manager.activity ≠ .ready) :
    e.outstanding = [] := by
  obtain hnone | ⟨-, -, ready, -⟩ := h.expected
  · exact hnone
  · exact absurd ready busy

theorem Orderly.link_eq_writer (h : Orderly e c) (busy : e.manager.activity ≠ .ready) :
    c.link = e.manager.writer := by
  have hended := (List.append_eq_nil_iff.mp (h.outstanding_eq_nil busy)).2
  have hlist := h.link_eq
  rw [links_eq_nil hended, List.nil_append] at hlist
  exact eq_of_toList_eq hlist

/-- The manager is fed the outcome of a write or a close. -/
theorem Orderly.awaits_outcome (h : Orderly e c) (busy : e.manager.activity ≠ .ready)
    (hfits : e.manager.fits input = true) {made : Custody}
    (hgeneration : made.generation = c.generation) (hlink : made.link = c.link)
    (hsince : made.since = none)
    (hspoiled : made.link ≠ none → (∀ error, input ≠ .written (.error error)) →
      made.spoiled = false) : e.manager.Awaits input made where
  sound := h.sound
  fits := hfits
  generation_le := hgeneration ▸ h.generation_le
  link_eq := by
    have hinput : input.link? = none := by
      cases input with
      | attemptFinished => exact absurd (ready_of_fits hfits) busy
      | _ => rfl
    rw [hlink, h.link_eq_writer busy, hinput]
    rfl
  unspoiled := hspoiled
  since_eq := hsince
  timely := by
    rintro generation result rfl
    exact absurd (ready_of_fits hfits) busy

/-- Who is written to is held. -/
theorem Orderly.held_of_isWriting (h : Orderly e c) (writing : e.isWriting = true) :
    e.present = true ∧ e.manager.activity ≠ .ready ∧ e.manager.isReleasing = false ∧
      (∀ result, e.manager.fits (.written result) = true) ∧
      ∃ link, e.manager.writer = some link := by
  have hsound := h.sound
  unfold isWriting at writing
  split at writing
  · rename_i payload busy
    simp only [Sound, busy] at hsound
    obtain ⟨link, hwriter, -⟩ := hsound.1.held hsound.2
    exact ⟨writing, by simp [busy], by simp [isReleasing, busy], by simp [fits, busy], link,
      hwriter⟩
  · rename_i payload flushed busy
    obtain ⟨link, hwriter⟩ := Option.isSome_iff_exists.mp (hsound.linked busy).writer_isSome
    exact ⟨writing, by simp [busy], by simp [isReleasing, busy], by simp [fits, busy], link,
      hwriter⟩
  · exact absurd writing Bool.false_ne_true

theorem Orderly.wrote (h : Orderly e c) (kept : Kept past c) (result : Except Failure Unit)
    (writing : e.isWriting = true) :
    Proceeds past ((e.deedOf (.written result)).toList ++
      Effect.deeds e.clock (e.feed (.written result)).2) (e.feed (.written result)).1 := by
  obtain ⟨present, busy, settled, hfits, link, hwriter⟩ := h.held_of_isWriting writing
  have hnone := h.outstanding_eq_nil busy
  have hsince := h.settled settled
  cases result with
  | ok =>
    have hawaits : e.manager.Awaits (.written (.ok ())) c :=
      h.awaits_outcome busy (hfits _) rfl rfl hsince fun hne _ => h.unspoiled hne
    exact proceeds_of_awaits hawaits kept present hnone
  | error error =>
    have hlink := (h.link_eq_writer busy).trans hwriter
    have hdeed : (e.deedOf (.written (.error error))).toList = [.unwritten link] := by
      simp [deedOf, hwriter]
    have hawaits : e.manager.Awaits (.written (.error error)) { c with spoiled := true } :=
      h.awaits_outcome busy (hfits _) rfl rfl hsince fun _ hwritten => absurd rfl (hwritten error)
    rw [hdeed, Proceeds, ← List.append_assoc]
    exact proceeds_of_awaits hawaits (kept.concat (.unwritten link hlink)) present hnone

/-- A close ends, or is given up once its time has passed. -/
theorem Orderly.endClose (h : Orderly e c) (kept : Kept past c) (closing : e.isClosing = true)
    (outcome : CloseOutcome)
    (patient : outcome = .timedOut → e.reached e.closeDeadline = true) :
    Proceeds past (.closed outcome e.clock :: Effect.deeds e.clock (e.endClose outcome).2)
      (e.endClose outcome).1 := by
  obtain ⟨present, generation, rest, busy⟩ : e.present = true ∧
      ∃ generation rest, e.manager.activity = .closing generation rest := by
    unfold isClosing at closing
    split at closing
    · rename_i generation rest busy
      exact ⟨closing, generation, rest, busy⟩
    · exact absurd closing Bool.false_ne_true
  obtain ⟨since, hsince, hdeadline⟩ := h.releasing (by simp [isReleasing, busy])
  have hended := kept.concat (.closed outcome e.clock since hsince fun late => by
    simpa [reached, hdeadline] using patient late)
  have hawaits : e.manager.Awaits (.closed outcome) { c with since := none } :=
    h.awaits_outcome (by simp [busy]) (by simp [fits, busy]) rfl rfl rfl
      fun hne _ => h.unspoiled hne
  rw [Proceeds, ← List.singleton_append, ← List.append_assoc]
  exact proceeds_of_awaits (e := { e with closeDeadline := none }) hawaits hended present
    (h.outstanding_eq_nil (by simp [busy]))

/-- An attempt that ends is no longer in flight. -/
theorem Alone.withoutAttempt_attempts {attempt : Attempt} (h : e.Alone c attempt) {number : Nat}
    (calls : e.Calls number attempt) : (e.withoutAttempt number).attempts = [] := by
  simp [withoutAttempt, h.attempts_eq, calls.number_eq]

/-- An attempt reports its end, with a link or without one. -/
theorem Orderly.endAttempt (h : Orderly e c) (kept : Kept past c) {number : Nat}
    {attempt : Attempt} (calls : e.Calls number attempt) (result : Except Failure LinkId) :
    Proceeds past
      ((e.deedOf (.answerOpen number result)).toList ++
        Effect.deeds e.clock ((e.withoutAttempt number).endAttempt attempt result).2)
      ((e.withoutAttempt number).endAttempt attempt result).1 := by
  have halone := h.alone calls.mem
  have hposted : (e.withoutAttempt number).endAttempt attempt result =
      ({ e.withoutAttempt number with
        inbox := e.inbox ++ [.attemptFinished attempt.generation result] }, []) := by
    rw [Ensemble.endAttempt, post]
    exact if_pos halone.present
  have hleft := halone.withoutAttempt_attempts calls
  have hwriter := h.writer_eq_none halone.connecting halone.ready
  have hlinks := links_eq_nil halone.ended_eq
  have hsettled := h.settled (isReleasing_of_ready halone.ready)
  have hreleasing : e.manager.isReleasing ≠ true := by
    simp [isReleasing, halone.ready]
  -- the attempt is outstanding as before: its end is not in flight any more, but waits
  have orderly {next : Custody} (hgeneration : next.generation = c.generation)
      (hlink : next.link.toList = [Message.attemptFinished attempt.generation result].filterMap
        Message.link?)
      (hspoiled : next.link ≠ none → next.spoiled = false) (hsince : next.since = c.since) :
      Orderly { e.withoutAttempt number with
        inbox := e.inbox ++ [.attemptFinished attempt.generation result] } next :=
    { sound := h.sound
      unpinned := by simp [hleft]
      expected := by
        right
        refine ⟨?_, halone.connecting, halone.ready, halone.present⟩
        rw [outstanding, hleft, List.filterMap_append, halone.ended_eq]
        exact congrArg ([·]) halone.generation_eq.symm
      awaited := by simp [hleft]
      generation_le := hgeneration ▸ h.generation_le
      link_eq := by
        have hheld : (e.withoutAttempt number).manager.writer = none := hwriter
        rw [hlink, List.filterMap_append, hlinks, hheld]
        simp
      unspoiled := hspoiled
      settled := fun _ => hsince.trans hsettled
      releasing := fun releasing => absurd releasing hreleasing }
  rw [hposted]
  cases result with
  | ok link =>
    exact ⟨_, kept.concat (.handed link halone.link_eq halone.since_eq),
      orderly rfl rfl (fun _ => rfl) rfl⟩
  | error error =>
    refine ⟨c, by simpa [deedOf] using kept, orderly rfl ?_ h.unspoiled rfl⟩
    rw [halone.link_eq]
    rfl

/-- An attempt calls the transport, and will not do so again. -/
theorem Orderly.called (h : Orderly e c) (kept : Kept past c) {before after : List Attempt}
    {attempt : Attempt} (uncalled : attempt.number = none)
    (hattempts : e.attempts = before ++ attempt :: after) :
    Proceeds past ((e.deedOf (.callOpen false)).toList ++ [])
      { e with
        attempts := before ++
          { attempt with
            number := some e.opens
            deadline := e.limit.map (e.clock + ·)
            pinned := false } :: after
        opens := e.opens + 1 } := by
  have hmem : attempt ∈ e.attempts := by simp [hattempts]
  have halone := h.alone hmem
  obtain ⟨rfl, rfl⟩ : before = [] ∧ after = [] := by
    have hone := halone.attempts_eq
    rw [hattempts] at hone
    cases before <;> simp_all
  have hdeed : (e.deedOf (.callOpen false)).toList ++ [] = [.called attempt.generation] := by
    simp [deedOf, halone.attempts_eq, uncalled]
  have hallows := Custody.Allows.called attempt.generation (h.awaited attempt hmem uncalled)
    halone.link_eq halone.since_eq
  rw [hdeed]
  refine ⟨_, kept.concat hallows, { h with
    unpinned := by simp
    expected := ?_
    awaited := by simp }⟩
  have hsame : e.outstanding = [attempt.generation] ++ e.inbox.filterMap Message.ended? := by
    rw [outstanding, halone.attempts_eq]
    rfl
  have hexpected := h.expected
  rw [hsame] at hexpected
  exact hexpected

/-- An event of a link that is passed on brings no link and ends no attempt. -/
theorem Orderly.passOn (h : Orderly e c) (task : ReaderTask) (event : LinkEvent) :
    Orderly (e.passOn task event).1 c := by
  have hinbox : (e.passOn task event).1.inbox.filterMap Message.ended? =
        e.inbox.filterMap Message.ended? ∧
      (e.passOn task event).1.inbox.filterMap Message.link? =
        e.inbox.filterMap Message.link? := by
    cases present : e.present <;>
      simp [Ensemble.passOn, LinkReader.pass, present, Message.ended?, Message.link?]
  exact { h with
    expected := by rw [outstanding, hinbox.1]; exact h.expected
    link_eq := by rw [hinbox.2]; exact h.link_eq }

/-- A move that is possible keeps the journal orderly, if it pins no task. -/
theorem Orderly.proceeds (h : Orderly e c) (kept : Kept past c) {move : Move}
    {reaction : Ensemble × List Effect} (moved : e.Moved move reaction)
    (unpinned : move.pins = false) :
    Proceeds past ((e.deedOf move).toList ++ Effect.deeds e.clock reaction.2) reaction.1 := by
  have aside {next : Ensemble} (hnext : Orderly next c) : Proceeds past [] next :=
    ⟨c, by simpa using kept, hnext⟩
  cases moved with
  | refused command =>
    have hsilent : Effect.deeds e.clock (refuse command) = [] := by cases command <;> rfl
    rw [hsilent]
    exact aside h
  | submitted | detached | elapsed => exact aside { h with }
  | messaged panicking message rest present ready first =>
    cases message with
    | attemptFinished => exact h.messaged_ended kept present ready first
    | linkEvent => exact h.messaged_event kept panicking present ready first
  | commanded panicking command rest present ready silent first =>
    have hnext : Orderly { e with commands := rest } c := { h with }
    exact hnext.ordered kept present ready silent (.inl ⟨command, rfl⟩)
  | deserted panicking present ready silent =>
    exact h.ordered kept present ready silent (.inr rfl)
  | wrote result writing => exact h.wrote kept result writing
  | closed result closing =>
    cases result <;> exact h.endClose kept closing _ (by simp)
  | expired closing late => exact h.endClose kept closing .timedOut fun _ => late
  | collapsed blocked =>
    refine aside { h with expected := .inl (h.outstanding_eq_nil fun ready => ?_) }
    simp [isBlocked, isWriting, isClosing, ready] at blocked
  | called pinned before attempt after uncalled first hattempts =>
    obtain rfl : pinned = false := unpinned
    exact h.called kept uncalled hattempts
  | answered number result attempt waits => exact h.endAttempt kept waits.toCalls result
  | completed number result =>
    have hsame : (e.attempts.map (·.complete number result)).map (·.generation) =
        e.attempts.map (·.generation) := by
      simp [Function.comp_def]
    refine aside { h with
      unpinned := fun attempt hmem => ?_
      expected := by rw [outstanding, hsame]; exact h.expected
      awaited := fun attempt hmem => ?_ }
    · obtain ⟨earlier, hearlier, rfl⟩ := List.mem_map.mp hmem
      simpa using h.unpinned earlier hearlier
    · obtain ⟨earlier, hearlier, rfl⟩ := List.mem_map.mp hmem
      simpa using h.awaited earlier hearlier
  | reported number result attempt calls =>
    have hdeed : e.deedOf (.reportOpen number result) = e.deedOf (.answerOpen number result) := by
      cases result <;> rfl
    rw [hdeed]
    exact h.endAttempt kept calls result
  | timedOut number attempt waits =>
    exact h.endAttempt kept waits.toCalls (.error .connectTimeout)
  | vanished number attempt waits =>
    have halone := h.alone waits.mem
    have hleft := halone.withoutAttempt_attempts waits.toCalls
    refine aside { h with
      unpinned := by simp [hleft]
      expected := .inl ?_
      awaited := by simp [hleft] }
    rw [outstanding, hleft]
    exact halone.ended_eq
  | fastened => simp [Move.pins] at unpinned
  | passed link event task =>
    -- who reads a link has no part in who owns it
    have hsilent : Effect.deeds e.clock (e.passOn task event).2 = [] := by
      simp [Ensemble.passOn, Effect.seen, List.filterMap_map]
    rw [hsilent]
    exact aside (h.passOn task event)

/-! ## Runs -/

theorem orderly_start (settings : Settings) : Orderly (ofSettings settings) {} where
  sound := sound_new settings.endpoint.url
  unpinned := by simp [ofSettings]
  expected := .inl rfl
  awaited := by simp [ofSettings]
  generation_le := Nat.le_refl _
  link_eq := rfl
  unspoiled := by simp
  settled := fun _ => rfl
  releasing := by simp [ofSettings, isReleasing]

/-- The journal of a run is proper, and orderly at the end. -/
theorem Orderly.run (h : Orderly e c) (kept : Kept past c) {moves : List Move} {last : Ensemble}
    {effects : List Effect} (hrun : e.run moves = some (last, effects))
    (unpinned : ∀ move ∈ moves, move.pins = false) : Proceeds past (e.journal moves) last := by
  induction moves generalizing e c past effects with
  | nil =>
    obtain ⟨rfl, -⟩ := Prod.mk.inj (Option.some.inj hrun)
    exact ⟨c, by simpa [journal] using kept, h⟩
  | cons move rest ih =>
    obtain ⟨mid, first, later, hmove, hrest, -⟩ := exists_of_run_cons hrun
    obtain ⟨next, hkept, hnext⟩ :=
      h.proceeds kept (moved hmove) (unpinned move List.mem_cons_self)
    have hproceeds := ih hnext hkept hrest fun other hmem =>
      unpinned other (List.mem_cons_of_mem move hmem)
    rw [journal, hmove, Proceeds, ← List.append_assoc]
    exact hproceeds

theorem handovers_deeds (clock : Nat) (effects : List Effect) :
    handovers (Effect.deeds clock effects) = [] := by
  rw [handovers, Effect.deeds, Effect.seen, List.filterMap_filterMap, List.filterMap_eq_nil_iff]
  rintro effect -
  cases effect with
  | emit event => cases event <;> rfl
  | _ => rfl

theorem handovers_deedOf (e : Ensemble) (move : Move) :
    handovers (e.deedOf move).toList = move.link?.toList := by
  cases move with
  | callOpen pinned => cases hfirst : e.attempts.find? (·.number.isNone) <;>
      simp [deedOf, hfirst, handovers, handed?, Move.link?]
  | written result =>
    cases result with
    | ok => rfl
    | error => cases hwriter : e.manager.writer <;>
        simp [deedOf, hwriter, handovers, handed?, Move.link?]
  | answerOpen number result | reportOpen number result => cases result <;> rfl
  | closed result => cases result <;> rfl
  | _ => rfl

/-- The links that are handed over are those that the transport answers with. -/
theorem handovers_journal_sublist (e : Ensemble) (moves : List Move) :
    (handovers (e.journal moves)).Sublist (moves.filterMap Move.link?) := by
  induction moves generalizing e with
  | nil => exact List.Sublist.refl []
  | cons move rest ih =>
    have hlinks : (move :: rest).filterMap Move.link? =
        move.link?.toList ++ rest.filterMap Move.link? := by
      rw [List.filterMap_cons]
      cases move.link? <;> rfl
    rw [journal, hlinks]
    split
    · rename_i next effects hmove
      rw [handovers_append, handovers_append, handovers_deedOf, handovers_deeds, List.append_nil]
      exact (ih next).append_left _
    · exact List.nil_sublist _

/-- The link is held, or waits to be. -/
def Owns (e : Ensemble) (link : LinkId) : Prop :=
  e.manager.writer = some link ∨
    ∃ generation, .attemptFinished generation (.ok link) ∈ e.inbox

theorem mem_links {messages : List Message} {link : LinkId} :
    link ∈ messages.filterMap Message.link? ↔
      ∃ generation, .attemptFinished generation (.ok link) ∈ messages := by
  rw [List.mem_filterMap]
  constructor
  · rintro ⟨message, hmem, hlink⟩
    match message, hlink with
    | .attemptFinished generation (.ok _), rfl => exact ⟨generation, hmem⟩
  · rintro ⟨generation, hmem⟩
    exact ⟨_, hmem, rfl⟩

theorem Orderly.owns_iff (h : Orderly e c) {link : LinkId} :
    e.Owns link ↔ c.link = some link := by
  rw [Owns, ← mem_links, ← Option.mem_toList, ← Option.mem_toList, h.link_eq, List.mem_append,
    or_comm]

/-- Links are owned by one party at a time, and released once. -/
structure Releases (e : Ensemble) (deeds : List Deed) : Prop where
  /-- one attempt at most is in flight or waits to be reported -/
  single : e.outstanding.length ≤ 1
  /-- none while a link is held -/
  unlinked : e.manager.writer ≠ none → e.outstanding = []
  /-- the transport is called once at most for an attempt that is announced -/
  calls : (calls deeds).Sublist (announcements deeds)
  /-- generations are announced in order -/
  announcements : (announcements deeds).Pairwise (· < ·)
  /-- a link that was handed over is owned, or its closing has begun once -/
  released : ∀ link ∈ handovers deeds,
    (e.Owns link ∧ (closings deeds).count link = 0) ∨
      (¬e.Owns link ∧ (closings deeds).count link = 1)
  /-- nothing is closed that was not handed over, and all links but one at most are closed -/
  unclosed : ∃ last : Option LinkId, handovers deeds = closings deeds ++ last.toList
  /-- nothing is written to a link that is being closed, or that has failed -/
  wrote : ∀ before link after, deeds = before ++ .wrote link :: after →
    link ∈ handovers before ∧ link ∉ closings before ∧ .unwritten link ∉ before
  /-- a closing that has begun ends before anything else is done; it is given up only once its
  time has passed -/
  closing : ∀ before link clock after, deeds = before ++ .closing link clock :: after →
    after = [] ∨ ∃ outcome later rest, after = .closed outcome later :: rest ∧
      (outcome = .timedOut → min (clock + closeGrace) timeHorizon ≤ later)

theorem Orderly.releases (h : Orderly e c) {deeds : List Deed} (kept : Kept deeds c)
    (distinct : (handovers deeds).Nodup) : e.Releases deeds where
  single := by
    obtain hnone | ⟨hone, -⟩ := h.expected
    · simp [hnone]
    · simp [hone]
  unlinked := by
    intro held
    obtain hnone | ⟨-, connecting, ready, -⟩ := h.expected
    · exact hnone
    · exact absurd (h.writer_eq_none connecting ready) held
  calls := (List.sublist_append_left _ _).trans kept.calls_sublist
  announcements := kept.announcements_lt.1
  released := by
    intro link hmem
    have hhandovers := kept.handovers_eq
    have hcount : (closings deeds).count link + c.link.toList.count link = 1 := by
      rw [← List.count_append, ← hhandovers]
      exact List.count_eq_one_of_mem distinct hmem
    rw [h.owns_iff]
    by_cases howned : c.link = some link
    · have hcurrent : c.link.toList.count link = 1 := by simp [howned]
      exact .inl ⟨howned, by omega⟩
    · have hcurrent : c.link.toList.count link = 0 := by
        rw [List.count_eq_zero, Option.mem_toList]
        exact howned
      exact .inr ⟨howned, by omega⟩
  unclosed := ⟨c.link, kept.handovers_eq⟩
  wrote := fun _ _ _ hdeeds => kept.of_wrote distinct hdeeds
  closing := fun _ _ _ _ hdeeds => kept.of_closing hdeeds

/-- **Every link is released once.** Whatever happens, as long as no task goes on after it was given
up, and as links can be told apart: there is one attempt at a time, each link that the transport
hands over is owned until it is closed, and it is closed once. -/
theorem links_released_once {settings : Settings} {moves : List Move} {last : Ensemble}
    {effects : List Effect} (hrun : (ofSettings settings).run moves = some (last, effects))
    (unpinned : ∀ move ∈ moves, move.pins = false)
    (distinct : (moves.filterMap Move.link?).Nodup) :
    last.Releases ((ofSettings settings).journal moves) := by
  obtain ⟨c, kept, orderly⟩ := (orderly_start settings).run .nil hrun unpinned
  rw [List.nil_append] at kept
  exact orderly.releases kept (distinct.sublist (handovers_journal_sublist _ _))

/-- A write fails, and the close that follows is given up. The link of the next attempt waits to be
handled. -/
theorem links_released_once_again :
    let start := ofSettings {}
    let moves : List Move := [.submit (.connect 0), .handle [], .callOpen false,
      .answerOpen 0 (.ok 7), .handle [], .submit (.send (.text "a")), .handle [],
      .written (.error .connectionClosed), .elapse 1000, .closeExpired, .submit (.connect 1),
      .handle [], .callOpen false, .answerOpen 1 (.ok 8)]
    let deeds : List Deed := [.announced 1, .called 1, .handed 7, .wrote 7, .unwritten 7,
      .closing 7 0, .closed .timedOut 1000, .announced 2, .called 2, .handed 8]
    start.journal moves = deeds ∧
      ∃ last effects, start.run moves = some (last, effects) ∧
        last.Releases (start.journal moves) ∧ last.Owns 8 := by
  intro start moves deeds
  have hjournal : start.journal moves = deeds := by decide +kernel
  have hpossible : (start.run moves).isSome = true := by decide +kernel
  obtain ⟨⟨last, effects⟩, hrun⟩ := Option.isSome_iff_exists.mp hpossible
  have hreleases := links_released_once hrun (by decide) (by decide)
  refine ⟨hjournal, last, effects, hrun, hreleases, ?_⟩
  obtain ⟨howned, -⟩ | ⟨-, hclosed⟩ := hreleases.released 8 (by rw [hjournal]; decide)
  · exact howned
  · rw [hjournal] at hclosed
    exact absurd hclosed (by decide)

end Ensemble

end PersistentLink
