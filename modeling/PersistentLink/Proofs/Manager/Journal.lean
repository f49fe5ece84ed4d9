import PersistentLink.Proofs.Ensemble.Custody
import PersistentLink.Proofs.Manager.Stale

/-!
# What the manager does with links

Of the effects of the manager some are entered in the journal of links: attempts are announced,
payloads are written and writers are closed. A step makes one entry at most, which may stand at the
end of a proper journal, provided that no attempt reports too late; and after it the journal says
which writer is held and whether one is being closed.

## Main definitions

- `Effect.deeds`: the entries that effects make
- `Manager.Awaits`: what the journal says when an input is about to be handled
- `Manager.Keeps`: what a step does to the journal

## Main results

- `Manager.Turn.exists_keeps`: a step keeps the journal proper
- `Manager.Turn.of_order`, `Manager.Turn.of_linkEvent`: what is done while an attempt is in flight
-/

namespace PersistentLink

namespace Effect

/-- The entry that an effect makes in the journal. -/
abbrev deed? (clock : Nat) : Effect → Option Deed
  | .emit (.connecting generation _) => some (.announced generation)
  | .write link _ => some (.wrote link)
  | .close link => some (.closing link clock)
  | _ => none

/-- The entries that effects make in the journal, in order. -/
abbrev deeds (clock : Nat) (effects : List Effect) : List Deed :=
  seen (deed? clock) effects

end Effect

namespace Manager

open Effect

section Parts

variable (m : Manager) (clock : Nat)

theorem deeds_resume {rest : Resume} (h : ∀ trigger, rest ≠ .attempt trigger) :
    deeds clock (m.resume rest).2 = [] := by
  cases rest with
  | linkLost error draining => cases draining <;> simp [resume, settleLost, deed?]
  | attempt trigger => exact absurd rfl (h trigger)
  | _ => simp [resume, settleClosed, settleReset, deed?]

end Parts

/-- A writer is being closed. -/
def isReleasing (m : Manager) : Bool :=
  match m.activity with
  | .closing .. => true
  | _ => false

@[simp]
theorem resume_writer (m : Manager) (rest : Resume) : (m.resume rest).1.writer = m.writer := by
  cases rest <;> rfl

theorem generation_le_resume (m : Manager) (rest : Resume) :
    m.generation ≤ (m.resume rest).1.generation := by
  cases rest <;> simp [resume, settleLost, settleClosed, settleReset, beginAttempt]

theorem eq_of_toList_eq {first second : Option LinkId} (h : first.toList = second.toList) :
    first = second := by
  cases first <;> cases second <;> simp_all

theorem isReleasing_of_ready {m : Manager} (ready : m.activity = .ready) :
    m.isReleasing = false := by
  simp [isReleasing, ready]

theorem isReleasing_resume (m : Manager) (rest : Resume) :
    (m.resume rest).1.isReleasing = false := by
  cases rest <;> rfl

/-- What the journal says when an input is about to be handled. -/
structure Awaits (m : Manager) (input : Input) (c : Custody) : Prop where
  sound : m.Sound
  fits : m.fits input = true
  generation_le : c.generation ≤ m.generation
  link_eq : c.link.toList = input.link?.toList ++ m.writer.toList
  unspoiled : c.link ≠ none → (∀ error, input ≠ .written (.error error)) → c.spoiled = false
  since_eq : c.since = none
  /-- no attempt reports too late -/
  timely : ∀ generation result, input = .attemptFinished generation result →
    generation = m.generation ∧ m.phase = .connecting

/-- What the journal says once an input has been handled, or is being handled. -/
structure Agrees (m : Manager) (clock : Nat) (c : Custody) : Prop where
  generation_le : c.generation ≤ m.generation
  link_eq : c.link = m.writer
  unspoiled : c.link ≠ none → c.spoiled = false
  since_eq : c.since = if m.isReleasing then some clock else none

variable {m : Manager} {input : Input} {reaction : Reaction} {c : Custody} {past : List Deed}
  {clock : Nat}

/-- What a step does is entered in the journal. -/
structure Keeps (past : List Deed) (clock : Nat) (c next : Custody) (reaction : Reaction) :
    Prop where
  kept : Kept (past ++ deeds clock reaction.2) next
  agrees : reaction.1.Agrees clock next
  awaited : attempts reaction.2 = [] ∧ next.awaited = c.awaited ∨
    attempts reaction.2 = [reaction.1.generation] ∧ next.awaited = some reaction.1.generation
  closings : reaction.1.isReleasing = true → closings reaction.2 ≠ []

theorem Awaits.link_eq_writer (h : m.Awaits input c) (hinput : input.link? = none) :
    c.link = m.writer :=
  eq_of_toList_eq (by simpa [hinput] using h.link_eq)

/-- Attempts end only where the manager waits for nothing else. -/
theorem ready_of_fits {generation : Nat} {result : Except Failure LinkId}
    (h : m.fits (.attemptFinished generation result) = true) : m.activity = .ready := by
  unfold fits at h
  split at h <;> simp_all

/-- A step that makes no entry. -/
theorem Awaits.keeps_of_silent (h : m.Awaits input c) (kept : Kept past c)
    (hdeeds : deeds clock reaction.2 = []) (hattempts : attempts reaction.2 = [])
    (hgeneration : m.generation ≤ reaction.1.generation) (hlink : c.link = reaction.1.writer)
    (hinput : ∀ error, input ≠ .written (.error error))
    (hreleasing : reaction.1.isReleasing = false) : Keeps past clock c c reaction where
  kept := by simpa [hdeeds] using kept
  agrees := ⟨Nat.le_trans h.generation_le hgeneration, hlink,
    fun hne => h.unspoiled hne hinput, by simp [h.since_eq, hreleasing]⟩
  awaited := .inl ⟨hattempts, rfl⟩
  closings := by simp [hreleasing]

/-- A step that announces an attempt. -/
theorem Awaits.keeps_of_announcement (h : m.Awaits input c) (kept : Kept past c)
    (hdeeds : deeds clock reaction.2 = [.announced (m.generation + 1)])
    (hattempts : attempts reaction.2 = [m.generation + 1])
    (hgeneration : reaction.1.generation = m.generation + 1) (free : c.link = none)
    (hwriter : reaction.1.writer = none) (hreleasing : reaction.1.isReleasing = false) :
    ∃ next, Keeps past clock c next reaction := by
  have hallows := Custody.Allows.announced (m.generation + 1)
    (Nat.lt_succ_of_le h.generation_le) free h.since_eq
  refine ⟨_, by simpa [hdeeds] using kept.concat hallows, ⟨?_, ?_, ?_, ?_⟩, ?_, ?_⟩
  · exact Nat.le_of_eq hgeneration.symm
  · exact free.trans hwriter.symm
  · exact fun hne => absurd free hne
  · simp [h.since_eq, hreleasing]
  · exact .inr ⟨hgeneration ▸ hattempts, congrArg some hgeneration.symm⟩
  · simp [hreleasing]

/-- A step that hands a payload to a writer. -/
theorem Awaits.keeps_of_write (h : m.Awaits input c) (kept : Kept past c) {link : LinkId}
    (hdeeds : deeds clock reaction.2 = [.wrote link]) (hattempts : attempts reaction.2 = [])
    (hgeneration : reaction.1.generation = m.generation) (hlink : c.link = some link)
    (hwriter : reaction.1.writer = some link) (hinput : ∀ error, input ≠ .written (.error error))
    (hreleasing : reaction.1.isReleasing = false) :
    Keeps past clock c c reaction := by
  have hunspoiled := h.unspoiled (by simp [hlink]) hinput
  refine ⟨by simpa [hdeeds] using kept.concat (.wrote link hlink hunspoiled), ⟨?_, ?_, ?_, ?_⟩,
    .inl ⟨hattempts, rfl⟩, by simp [hreleasing]⟩
  · exact hgeneration ▸ h.generation_le
  · exact hlink.trans hwriter.symm
  · exact fun _ => hunspoiled
  · simp [h.since_eq, hreleasing]

/-- A step that begins to close a writer. -/
theorem Awaits.keeps_of_close (h : m.Awaits input c) (kept : Kept past c) {link : LinkId}
    (hdeeds : deeds clock reaction.2 = [.closing link clock])
    (hattempts : attempts reaction.2 = []) (hclosings : Effect.closings reaction.2 = [link])
    (hgeneration : reaction.1.generation = m.generation) (hlink : c.link = some link)
    (hwriter : reaction.1.writer = none) (hreleasing : reaction.1.isReleasing = true) :
    ∃ next, Keeps past clock c next reaction := by
  refine ⟨{ c with link := none, since := some clock },
    by simpa [hdeeds] using kept.concat (.closing link clock hlink), ⟨?_, ?_, ?_, ?_⟩,
    .inl ⟨hattempts, rfl⟩, by simp [hclosings]⟩
  · exact hgeneration ▸ h.generation_le
  · exact hwriter.symm
  · simp
  · simp [hreleasing]

/-- What is done with an input is entered in the journal. -/
theorem Turn.exists_keeps (turn : Turn m input reaction) (h : m.Awaits input c)
    (kept : Kept past c) : ∃ next, Keeps past clock c next reaction := by
  have hsound := h.sound
  have unlinked (ready : m.activity = .ready) (hphase : m.phase ≠ .live) : m.writer = none :=
    ((hsound.settled ready).unlinked hphase).1
  cases turn with
  | welcomed _ ready | joined _ ready | queued _ ready | registered _ ready | reported _ ready
      | received _ _ ready | alreadyDown _ _ ready | staleEvent _ _ _ ready =>
    exact ⟨c, h.keeps_of_silent kept (by simp [deed?]) (by simp [attempt?]) (Nat.le_refl _)
      (h.link_eq_writer rfl) (by simp) (by simp [isReleasing, ready])⟩
  | called _ ready free | summoned _ ready free =>
    have hwriter := unlinked ready (mayStartAttempt_iff.mp free).1
    exact h.keeps_of_announcement kept (by simp [deed?]) (by simp [attempt?]) rfl
      ((h.link_eq_writer rfl).trans hwriter) hwriter rfl
  | failedRetrying _ ready connecting =>
    have hwriter := unlinked ready (by rw [connecting]; decide)
    exact h.keeps_of_announcement kept (by simp [deed?]) (by simp [attempt?]) rfl
      ((h.link_eq_writer rfl).trans hwriter) hwriter rfl
  | handedOver payload link ready live held =>
    exact ⟨c, h.keeps_of_write kept (by simp [deed?]) (by simp [attempt?]) rfl
      ((h.link_eq_writer rfl).trans held) held (by simp) rfl⟩
  | drainedOne _ _ _ _ link busy _ held =>
    exact ⟨c, h.keeps_of_write kept (by simp [deed?]) (by simp [attempt?]) rfl
      ((h.link_eq_writer rfl).trans held) held (by simp) rfl⟩
  | openedDraining link payload rest ready connecting =>
    -- the link changes hands and is written to in one step
    have hwriter := unlinked ready (by rw [connecting]; decide)
    have hlink : c.link = some link := by simpa [Input.link?, hwriter] using h.link_eq
    exact ⟨c, h.keeps_of_write kept (by simp [deed?]) (by simp [attempt?]) rfl hlink rfl
      (by simp) rfl⟩
  | dismissing order link ready live held =>
    cases order <;>
      exact h.keeps_of_close kept (by simp [deed?]) (by simp [attempt?]) rfl rfl
        ((h.link_eq_writer rfl).trans held) rfl rfl
  | peerClosed _ _ link ready live held =>
    exact h.keeps_of_close kept (by simp [deed?]) (by simp [attempt?]) rfl rfl
      ((h.link_eq_writer rfl).trans held) rfl rfl
  | writeLost _ _ link busy held =>
    exact h.keeps_of_close kept (by simp [deed?]) (by simp [attempt?]) rfl rfl
      ((h.link_eq_writer rfl).trans held) rfl rfl
  | drainLost _ _ _ link busy held =>
    exact h.keeps_of_close kept (by simp [deed?]) (by simp [attempt?]) rfl rfl
      ((h.link_eq_writer rfl).trans held) rfl rfl
  | dismissed order ready hphase =>
    have hwriter := unlinked ready hphase
    cases order <;>
      exact ⟨c, h.keeps_of_silent kept (by simp [deed?, deeds_resume, apply_ite])
        (by simp [attempt?, attempts_resume, apply_ite]) (Nat.le_succ _) (h.link_eq_writer rfl)
        (by simp) rfl⟩
  | staleSuccess _ _ _ stale | staleFailure _ _ _ stale =>
    -- the link of a late success would be closed while another one is held
    exact absurd (h.timely _ _ rfl) stale
  | opened link ready connecting =>
    have hwriter := unlinked ready (by rw [connecting]; decide)
    have hlink : c.link = some link := by simpa [Input.link?, hwriter] using h.link_eq
    exact ⟨c, h.keeps_of_silent kept (by simp [deed?]) (by simp [attempt?]) (Nat.le_refl _) hlink
      (by simp) (by simp [isReleasing, ready])⟩
  | failed error ready =>
    exact ⟨c, h.keeps_of_silent kept (by simp) (by simp) (Nat.le_refl _)
      (h.link_eq_writer rfl) (by simp) (by simp [isReleasing, ready])⟩
  | wrote _ busy | drained _ _ busy =>
    exact ⟨c, h.keeps_of_silent kept (by simp [deed?]) (by simp [attempt?]) (Nat.le_refl _)
      (h.link_eq_writer rfl) (by simp) rfl⟩
  | released generation rest outcome busy =>
    have hrest : ∀ trigger, rest ≠ .attempt trigger := by
      rintro trigger rfl
      exact hsound.not_closing_for_attempt generation trigger busy
    have hattempts : attempts (m.resume rest).2 = [] := by
      cases rest <;> simp_all [attempts_resume]
    have hlink := (h.link_eq_writer rfl).trans (m.resume_writer rest).symm
    exact ⟨c, h.keeps_of_silent kept (by simp [deed?, deeds_resume m clock hrest])
      (by simp [attempt?, hattempts]) (m.generation_le_resume rest) hlink (by simp)
      (m.isReleasing_resume rest)⟩
  | ignored _ stray => simp [h.fits] at stray

/-- An order that comes while an attempt is in flight leaves it in flight, or gives it up. -/
theorem Turn.of_order (turn : Turn m input reaction) (hsound : m.Sound)
    (connecting : m.phase = .connecting) (ready : m.activity = .ready)
    (order : (∃ command, input = .command command) ∨ input = .commandsEnded) :
    attempts reaction.2 = [] ∧
      ((reaction.1.generation = m.generation ∧ reaction.1.phase = .connecting ∧
        reaction.1.activity = .ready ∧ ∀ e : Ensemble, reaction.2.foldl Ensemble.absorb e = e) ∨
      .abandonAttempt ∈ reaction.2) := by
  have hattempting := (hsound.settled ready).attempting_iff.mpr connecting
  cases turn with
  | joined | queued | registered | reported =>
    exact ⟨by simp [attempt?], .inl ⟨rfl, connecting, ready, fun _ => rfl⟩⟩
  | dismissed order =>
    cases order <;> simp [attempt?, attempts_resume, hattempting]
  | called _ _ free | summoned _ _ free => simp [connecting, Phase.mayStartAttempt] at free
  | welcomed _ _ live | handedOver _ _ _ live | dismissing _ _ _ live => simp [live] at connecting
  | ignored _ stray => obtain ⟨command, rfl⟩ | rfl := order <;> simp [fits, ready] at stray
  | _ => simp at order

theorem foldl_absorb_dispatch (m : Manager) (payload : Payload) (panicking : List ObserverId)
    (e : Ensemble) : (m.dispatch payload panicking).foldl Ensemble.absorb e = e := by
  refine List.foldlRecOn (motive := fun next => next = e) _ _ rfl ?_
  rintro next rfl effect hmem
  obtain ⟨observer, rfl⟩ | ⟨record, rfl, -⟩ := m.mem_dispatch hmem <;> rfl

/-- An event of a link that comes while an attempt is in flight is shown or logged. -/
theorem Turn.of_linkEvent {generation : Nat} {event : LinkEvent} {panicking : List ObserverId}
    (turn : Turn m (.linkEvent generation event panicking) reaction) (clock : Nat)
    (connecting : m.phase = .connecting) :
    reaction.1 = m ∧ deeds clock reaction.2 = [] ∧
      ∀ e : Ensemble, reaction.2.foldl Ensemble.absorb e = e := by
  cases turn with
  | received => exact ⟨rfl, by simp, foldl_absorb_dispatch _ _ _⟩
  | alreadyDown | staleEvent => exact ⟨rfl, by simp [deed?], fun _ => rfl⟩
  | ignored => exact ⟨rfl, rfl, fun _ => rfl⟩
  | peerClosed _ _ _ _ live => simp [live] at connecting
  | dismissing order | dismissed order => cases order

end Manager

end PersistentLink
