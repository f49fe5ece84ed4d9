import Mathlib.Data.List.Chain
import PersistentLink.Proofs.Manager.Journal

/-!
# What can be seen of the phase

Whoever holds a handle sees the phase that was published last. What is published goes along with
what is done with links: live is published once a link has been opened and before anything is
written to it, and the link is given up, and its writer closed, before another phase is published.

## Main definitions

- `Phase.Change`: the changes of phase that are published
- `Sign`: what is seen of the phase, and what is done with links
- `Outlook`: what the signs say of the present
- `Outlook.Allows`, `Outlook.Passes`: which sign may come next, and which signs one after another
- `Effect.signs`: the signs of effects

## Main results

- `Outlook.Passes.isChain`: the published phases follow one another as they may
- `Outlook.Passes.exists_opened`: what was seen since the present link was opened
- `Outlook.Passes.exists_released`: what was seen last of a link that was given up
- `Manager.Turn.passes`: what a step shows is allowed, and tells where the connection stands
-/

namespace PersistentLink

/-- The changes of phase that are published. -/
inductive Phase.Change : Phase → Phase → Prop
  /-- the first attempt, or the first after a reset -/
  | started : Change .idle .connecting
  /-- another attempt, after a failed one or a lost link -/
  | restarted : Change .down .connecting
  | opened : Change .connecting .live
  | failed : Change .connecting .down
  /-- a reset while an attempt is in flight -/
  | abandoned : Change .connecting .idle
  | lost : Change .live .down
  /-- a reset while a link is open -/
  | released : Change .live .idle
  /-- a reset while there is neither -/
  | cleared : Change .down .idle

theorem Phase.Change.ne {source target : Phase} (h : Change source target) : source ≠ target := by
  cases h <;> decide

/-- What is seen of the phase, and what is done with links. -/
inductive Sign
  /-- a phase is published -/
  | published (phase : Phase)
  /-- the manager is given a link -/
  | opened (link : LinkId)
  /-- the writing of a payload begins -/
  | wrote (link : LinkId)
  /-- the closing of a writer begins -/
  | closing (link : LinkId) (clock : Nat)
  /-- the closing of a writer ends -/
  | closed (outcome : CloseOutcome) (clock : Nat)
  deriving DecidableEq, Repr

namespace Sign

def published? : Sign → Option Phase
  | published phase => some phase
  | _ => none

/-- The published phases, in order. -/
def phases (signs : List Sign) : List Phase :=
  signs.filterMap published?

/-- The phase that a handle shows: the one that was published last, or the one at the start. -/
def shown (signs : List Sign) : Phase :=
  (phases signs).getLastD .idle

end Sign

/-- What the signs say of the present. -/
structure Outlook where
  /-- the phase that was published last -/
  phase : Phase := .idle
  /-- the link that was opened and not given up -/
  link : Option LinkId := none
  /-- time at which the closing under way began -/
  since : Option Nat := none
  deriving DecidableEq, Repr

namespace Outlook

/-- The signs that may come next, and what they say then. -/
inductive Allows (w : Outlook) : Sign → Outlook → Prop
  | opened (link : LinkId) (connecting : w.phase = .connecting) (free : w.link = none)
      (settled : w.since = none) :
    Allows w (.opened link) { w with link := some link }
  -- live is published with a link, and any other phase without one
  | published (phase : Phase) (change : Phase.Change w.phase phase)
      (linked : w.link.isSome = true ↔ phase = .live) (settled : w.since = none) :
    Allows w (.published phase) { w with phase }
  | wrote (link : LinkId) (live : w.phase = .live) (held : w.link = some link)
      (settled : w.since = none) :
    Allows w (.wrote link) w
  -- the link is given up
  | released (link : LinkId) (clock : Nat) (live : w.phase = .live) (held : w.link = some link)
      (settled : w.since = none) :
    Allows w (.closing link clock) { w with link := none, since := some clock }
  -- the link of an earlier attempt came too late
  | discarded (link : LinkId) (clock : Nat) (linked : w.phase = .live → w.link.isSome = true)
      (settled : w.since = none) :
    Allows w (.closing link clock) { w with since := some clock }
  -- a closing is not given up before its time has passed
  | closed (outcome : CloseOutcome) (clock since : Nat) (began : w.since = some since)
      (patient : outcome = .timedOut → min (since + closeGrace) timeHorizon ≤ clock) :
    Allows w (.closed outcome clock) { w with since := none }

/-- The signs that may come one after another. -/
inductive Passes : Outlook → List Sign → Outlook → Prop
  | nil (w : Outlook) : Passes w [] w
  | cons {w mid last : Outlook} {sign : Sign} {signs : List Sign} (allows : w.Allows sign mid)
      (passes : Passes mid signs last) : Passes w (sign :: signs) last

variable {w mid last : Outlook} {signs before after : List Sign} {sign : Sign} {link : LinkId}

theorem Allows.passes (h : w.Allows sign last) : w.Passes [sign] last :=
  .cons h (.nil last)

theorem Passes.append (h : w.Passes before mid) (h' : mid.Passes after last) :
    w.Passes (before ++ after) last := by
  induction h with
  | nil => exact h'
  | cons allows _ ih => exact .cons allows (ih h')

theorem Passes.exists_mid (h : w.Passes (before ++ after) last) :
    ∃ mid, w.Passes before mid ∧ mid.Passes after last := by
  induction before generalizing w with
  | nil => exact ⟨w, .nil w, h⟩
  | cons sign rest ih =>
    cases h with
    | cons allows passes =>
      obtain ⟨mid, hrest, hafter⟩ := ih passes
      exact ⟨mid, .cons allows hrest, hafter⟩

/-- A sign that may stand where it stands. -/
theorem Passes.exists_allows (h : w.Passes (before ++ sign :: after) last) :
    ∃ mid next, w.Passes before mid ∧ mid.Allows sign next := by
  obtain ⟨mid, hbefore, hafter⟩ := h.exists_mid
  cases hafter with
  | cons allows _ => exact ⟨mid, _, hbefore, allows⟩

/-- The last of several signs. -/
theorem Passes.exists_last (h : w.Passes (signs ++ [sign]) last) :
    ∃ mid, w.Passes signs mid ∧ mid.Allows sign last := by
  obtain ⟨mid, hsigns, hlast⟩ := h.exists_mid
  cases hlast with
  | cons allows hnil =>
    cases hnil
    exact ⟨mid, hsigns, allows⟩

/-! ## What the signs say -/

/-- The published phases follow one another as they may. -/
theorem Passes.isChain (h : w.Passes signs last) :
    (w.phase :: Sign.phases signs).IsChain Phase.Change := by
  induction h with
  | nil => exact List.isChain_singleton _
  | cons allows _ ih =>
    cases allows with
    | published phase change => exact List.isChain_cons_cons.mpr ⟨change, ih⟩
    | opened | wrote | released | discarded | closed => exact ih

theorem Passes.phase_eq (h : w.Passes signs last) :
    last.phase = (Sign.phases signs).getLastD w.phase := by
  induction h with
  | nil => rfl
  | cons allows _ ih =>
    cases allows with
    | published phase =>
      rw [ih]
      exact (List.getLastD_cons ..).symm
    | opened | wrote | released | discarded | closed => exact ih

/-- Since the present link was opened no other one was, and if the connection is live, that was
published since then. -/
theorem Passes.exists_opened (h : Passes {} signs w) (held : w.link = some link) :
    ∃ earlier between, signs = earlier ++ .opened link :: between ∧
      (∀ other, .opened other ∉ between) ∧ (w.phase = .live → .published .live ∈ between) := by
  induction signs using List.reverseRecOn generalizing w with
  | nil =>
    cases h
    simp at held
  | append_singleton signs sign ih =>
    obtain ⟨mid, hsigns, allows⟩ := h.exists_last
    -- the link was there before the sign, which is seen after its opening
    have later (hheld : mid.link = some link) (hsign : ∀ other, sign ≠ .opened other)
        (hphase : w.phase = .live → mid.phase = .live ∨ sign = .published .live) :
        ∃ earlier between, signs ++ [sign] = earlier ++ .opened link :: between ∧
          (∀ other, .opened other ∉ between) ∧
          (w.phase = .live → .published .live ∈ between) := by
      obtain ⟨earlier, between, rfl, hnone, hlive⟩ := ih hsigns hheld
      refine ⟨earlier, between ++ [sign], by simp, fun other hmem => ?_, fun live => ?_⟩
      · obtain hmem | hmem := List.mem_append.mp hmem
        · exact hnone other hmem
        · exact hsign other (List.mem_singleton.mp hmem).symm
      · obtain hmid | rfl := hphase live
        · exact List.mem_append_left _ (hlive hmid)
        · exact List.mem_append_right _ (List.mem_singleton_self _)
    cases allows with
    | opened other connecting =>
      obtain rfl := Option.some.inj held
      exact ⟨signs, [], rfl, by simp, fun live => absurd (connecting.symm.trans live) (by decide)⟩
    | published phase _ linked =>
      have hheld : mid.link = some link := held
      obtain rfl := linked.mp (by simp [hheld])
      exact later hheld (by simp) fun _ => .inr rfl
    | wrote | discarded | closed => exact later held (by simp) .inl
    | released => simp at held

/-- If the connection is live and its link was given up, the closing of the link is the last that
was seen, or its end is. -/
theorem Passes.exists_released (h : Passes {} signs w) (live : w.phase = .live)
    (free : w.link = none) :
    ∃ earlier link between since, (∀ other, .opened other ∉ between) ∧
      .published .live ∈ between ∧
      (w.since = some since ∧
          signs = earlier ++ .opened link :: between ++ [.closing link since] ∨
        w.since = none ∧ ∃ outcome clock,
          signs = earlier ++ .opened link :: between ++
            [.closing link since, .closed outcome clock] ∧
          (outcome = .timedOut → min (since + closeGrace) timeHorizon ≤ clock)) := by
  induction signs using List.reverseRecOn generalizing w with
  | nil =>
    cases h
    simp at live
  | append_singleton signs sign ih =>
    obtain ⟨mid, hsigns, allows⟩ := h.exists_last
    cases allows with
    | opened => simp at free
    | published phase _ linked =>
      have hnone : mid.link = none := free
      simp [hnone, show phase = .live from live] at linked
    | wrote link _ held => simp [held] at free
    | released link clock hlive held =>
      obtain ⟨earlier, between, rfl, hnone, hshown⟩ := hsigns.exists_opened held
      exact ⟨earlier, link, between, clock, hnone, hshown hlive, .inl ⟨rfl, rfl⟩⟩
    | discarded link clock linked =>
      have hsome := linked live
      rw [show mid.link = none from free] at hsome
      simp at hsome
    | closed outcome clock since began patient =>
      obtain ⟨earlier, link, between, first, hnone, hshown, ⟨hsince, rfl⟩ | ⟨hsince, -⟩⟩ :=
        ih hsigns live free
      · obtain rfl : since = first := Option.some.inj (began.symm.trans hsince)
        exact ⟨earlier, link, between, since, hnone, hshown,
          .inr ⟨rfl, outcome, clock, by simp, patient⟩⟩
      · simp [hsince] at began

/-- Nothing is written to a link before live has been published since its opening. -/
theorem Passes.of_wrote (h : Passes {} signs last)
    (hsigns : signs = before ++ .wrote link :: after) :
    ∃ earlier between, before = earlier ++ .opened link :: between ∧
      (∀ other, .opened other ∉ between) ∧ .published .live ∈ between := by
  subst hsigns
  obtain ⟨mid, next, hbefore, allows⟩ := h.exists_allows
  cases allows with
  | wrote _ live held =>
    obtain ⟨earlier, between, hsplit, hnone, hshown⟩ := hbefore.exists_opened held
    exact ⟨earlier, between, hsplit, hnone, hshown live⟩

/-- Live is left for another phase only when the closing of the link has just ended. -/
theorem Passes.of_published (h : Passes {} signs last) {phase : Phase}
    (hsigns : signs = before ++ .published phase :: after) (live : Sign.shown before = .live) :
    ∃ earlier link between since outcome clock,
      before = earlier ++ .opened link :: between ++
        [.closing link since, .closed outcome clock] ∧
      (∀ other, .opened other ∉ between) ∧
      (outcome = .timedOut → min (since + closeGrace) timeHorizon ≤ clock) := by
  subst hsigns
  obtain ⟨mid, next, hbefore, allows⟩ := h.exists_allows
  have hlive : mid.phase = .live := hbefore.phase_eq.trans live
  cases allows with
  | published _ change linked settled =>
    have hother : phase ≠ .live := fun hsame => change.ne (hlive.trans hsame.symm)
    have hfree : mid.link = none := by
      rw [← Option.not_isSome_iff_eq_none, linked]
      exact hother
    obtain ⟨earlier, link, between, since, hnone, -, ⟨hsince, -⟩ | ⟨-, outcome, clock, hsplit,
      patient⟩⟩ := hbefore.exists_released hlive hfree
    · simp [settled] at hsince
    · exact ⟨earlier, link, between, since, outcome, clock, hsplit, hnone, patient⟩

end Outlook

/-! ## The signs of effects -/

namespace Effect

/-- The sign that an effect is. -/
abbrev sign? (clock : Nat) : Effect → Option Sign
  | .publish phase => some (.published phase)
  | .startReader link _ => some (.opened link)
  | .write link _ => some (.wrote link)
  | .close link => some (.closing link clock)
  | _ => none

/-- The signs that effects are, in order. -/
abbrev signs (clock : Nat) (effects : List Effect) : List Sign :=
  seen (sign? clock) effects

end Effect

namespace Manager

open Effect

section Parts

variable (m : Manager) (clock : Nat)

/-- The phase that is published once a writer has been closed. -/
theorem signs_resume (rest : Resume) :
    signs clock (m.resume rest).2 =
      match rest with
      | .linkLost .. | .linkClosed _ => signs clock (transition m.phase .down)
      | .reset _ | .shutdown => signs clock (transition m.phase .idle)
      | .attempt _ => signs clock (transition m.phase .connecting)
      | .nothing => [] := by
  cases rest with
  | linkLost error draining => cases draining <;> simp [resume, settleLost, sign?]
  | _ => simp [resume, settleClosed, settleReset, sign?]

end Parts

/-- What can be seen of a manager. -/
def outlook (m : Manager) (since : Option Nat) : Outlook :=
  ⟨m.phase, m.writer, since⟩

/-- What can be seen of a manager right after a step. -/
def outlookAfter (m : Manager) (clock : Nat) : Outlook :=
  m.outlook (if m.isReleasing then some clock else none)

variable {m : Manager} {input : Input} {reaction : Reaction} {clock : Nat} {link : LinkId}

theorem outlookAfter_of_settled (settled : m.isReleasing = false) :
    m.outlookAfter clock = m.outlook none := by
  simp [outlookAfter, settled]

theorem outlookAfter_of_releasing (releasing : m.isReleasing = true) :
    m.outlookAfter clock = m.outlook (some clock) := by
  simp [outlookAfter, releasing]

/-- A link is opened, and live is published. -/
theorem passes_opened (connecting : m.phase = .connecting) (free : m.writer = none) :
    (m.outlook none).Passes [.opened link, .published .live] ⟨.live, some link, none⟩ := by
  have hopened : (m.outlook none).Allows (.opened link) ⟨m.phase, some link, none⟩ :=
    .opened link connecting free rfl
  have hpublished : Outlook.Allows ⟨m.phase, some link, none⟩ (.published .live)
      ⟨.live, some link, none⟩ :=
    .published .live (connecting ▸ .opened) (by simp) rfl
  exact hopened.passes.append hpublished.passes

/-- A change of phase without a link. -/
theorem passes_transition (w : Outlook) (target : Phase) (clock : Nat)
    (change : w.phase = target ∨ Phase.Change w.phase target) (free : w.link = none)
    (settled : w.since = none) (hother : target ≠ .live) :
    w.Passes (signs clock (transition w.phase target)) { w with phase := target } := by
  obtain hsame | hchange := change
  · subst hsame
    simpa using Outlook.Passes.nil w
  · rw [transition, if_neg hchange.ne]
    exact (Outlook.Allows.published target hchange (by simp [free, hother]) settled).passes

/-- A step after which no writer is being closed. -/
theorem passes_of_settled {made : List Sign} {last : Outlook}
    (hsigns : signs clock reaction.2 = made) (hpasses : (m.outlook none).Passes made last)
    (hlast : last = reaction.1.outlook none) (settled : reaction.1.isReleasing = false) :
    (m.outlook none).Passes (signs clock reaction.2) (reaction.1.outlookAfter clock) := by
  rw [hsigns, outlookAfter_of_settled settled, ← hlast]
  exact hpasses

/-- A step after which nothing else is seen. -/
theorem passes_of_silent (hsigns : signs clock reaction.2 = [])
    (hphase : reaction.1.phase = m.phase) (hwriter : reaction.1.writer = m.writer)
    (settled : reaction.1.isReleasing = false) :
    (m.outlook none).Passes (signs clock reaction.2) (reaction.1.outlookAfter clock) := by
  refine passes_of_settled hsigns (.nil _) ?_ settled
  rw [outlook, outlook, hphase, hwriter]

/-- A step that hands a payload to a writer. -/
theorem passes_of_write (hsigns : signs clock reaction.2 = [.wrote link]) (live : m.phase = .live)
    (held : m.writer = some link) (hphase : reaction.1.phase = m.phase)
    (hwriter : reaction.1.writer = m.writer) (settled : reaction.1.isReleasing = false) :
    (m.outlook none).Passes (signs clock reaction.2) (reaction.1.outlookAfter clock) := by
  refine passes_of_settled hsigns (Outlook.Allows.wrote link live held rfl).passes ?_ settled
  rw [outlook, outlook, hphase, hwriter]

/-- A step that begins to close the writer of the link that is held. -/
theorem passes_of_close (hsigns : signs clock reaction.2 = [.closing link clock])
    (live : m.phase = .live) (held : m.writer = some link) (hphase : reaction.1.phase = m.phase)
    (hwriter : reaction.1.writer = none) (releasing : reaction.1.isReleasing = true) :
    (m.outlook none).Passes (signs clock reaction.2) (reaction.1.outlookAfter clock) := by
  rw [hsigns, outlookAfter_of_releasing releasing, outlook, outlook, hphase, hwriter]
  exact (Outlook.Allows.released link clock live held rfl).passes

/-- A step that changes the phase while there is no link. -/
theorem passes_of_transition (target : Phase)
    (hsigns : signs clock reaction.2 = signs clock (transition m.phase target))
    (change : m.phase = target ∨ Phase.Change m.phase target) (free : m.writer = none)
    (hphase : reaction.1.phase = target) (hwriter : reaction.1.writer = none)
    (settled : reaction.1.isReleasing = false) (hother : target ≠ .live) :
    (m.outlook none).Passes (signs clock reaction.2) (reaction.1.outlookAfter clock) := by
  have hpasses := passes_transition (m.outlook none) target clock change free rfl hother
  refine passes_of_settled hsigns hpasses ?_ settled
  rw [outlook, outlook, hphase, hwriter, free]

theorem change_connecting {phase : Phase} (free : phase.mayStartAttempt = true) :
    Phase.Change phase .connecting := by
  cases phase with
  | idle => exact .started
  | down => exact .restarted
  | connecting | live => simp [Phase.mayStartAttempt] at free

theorem change_idle {phase : Phase} : phase = .idle ∨ Phase.Change phase .idle := by
  cases phase with
  | idle => exact .inl rfl
  | connecting => exact .inr .abandoned
  | live => exact .inr .released
  | down => exact .inr .cleared

/-- What is seen once a writer has been closed, and the link was given up before. -/
theorem Severed.passes_resume {rest : Resume} (h : m.Severed rest) :
    (m.outlook none).Passes (signs clock (m.resume rest).2)
      ((m.resume rest).1.outlookAfter clock) := by
  have hleft := h.leftFor
  have settled := m.isReleasing_resume rest
  have hwriter := (m.resume_writer rest).trans h.writer_eq
  have hlost : m.phase = .down ∨ Phase.Change m.phase .down := .inr (h.phase_eq ▸ .lost)
  cases rest with
  | linkLost | linkClosed =>
    exact passes_of_transition _ (signs_resume m clock _) hlost h.writer_eq rfl hwriter settled
      (by decide)
  | reset | shutdown =>
    exact passes_of_transition _ (signs_resume m clock _) change_idle h.writer_eq rfl hwriter
      settled (by decide)
  | attempt | nothing => exact hleft.elim

/-- What a step shows is allowed, and after it the phase that was published last is the one in the
books. -/
theorem Turn.passes (turn : Turn m input reaction) (hsound : m.Sound)
    (hfits : m.fits input = true) (clock : Nat) :
    (m.outlook none).Passes (signs clock reaction.2) (reaction.1.outlookAfter clock) := by
  have unlinked (ready : m.activity = .ready) (hphase : m.phase ≠ .live) : m.writer = none :=
    ((hsound.settled ready).unlinked hphase).1
  cases turn with
  | welcomed _ ready | joined _ ready | queued _ ready | registered _ ready | reported _ ready
      | staleFailure _ _ ready | received _ _ ready | alreadyDown _ _ ready
      | staleEvent _ _ _ ready =>
    exact passes_of_silent (by simp [sign?]) rfl rfl (isReleasing_of_ready ready)
  | wrote | drained => exact passes_of_silent (by simp [sign?]) rfl rfl rfl
  | called _ ready free | summoned _ ready free =>
    have hwriter := unlinked ready (mayStartAttempt_iff.mp free).1
    exact passes_of_transition .connecting (by simp [sign?]) (.inr (change_connecting free)) hwriter
      rfl hwriter rfl (by decide)
  | handedOver payload link ready live held =>
    exact passes_of_write (by simp [sign?]) live held rfl rfl rfl
  | drainedOne _ _ _ _ link busy _ held =>
    exact passes_of_write (by simp [sign?]) (hsound.linked busy).phase_eq held rfl rfl rfl
  | dismissing order link ready live held =>
    cases order <;> exact passes_of_close (by simp [sign?]) live held rfl rfl rfl
  | peerClosed _ _ link ready live held =>
    exact passes_of_close (by simp [sign?]) live held rfl rfl rfl
  | writeLost _ _ link busy held =>
    have live : m.phase = .live := by
      simp only [Sound, busy] at hsound
      exact hsound.2
    exact passes_of_close (by simp [sign?]) live held rfl rfl rfl
  | drainLost _ _ _ link busy held =>
    exact passes_of_close (by simp [sign?]) (hsound.linked busy).phase_eq held rfl rfl rfl
  | dismissed order ready hphase =>
    have hwriter := unlinked ready hphase
    cases order <;>
      exact passes_of_transition .idle
        (by simp [sign?, signs_resume, apply_ite]) change_idle hwriter rfl hwriter rfl (by decide)
  | staleSuccess generation link ready stale =>
    -- the link comes beside the one that is held, if one is
    rw [outlookAfter_of_releasing rfl]
    have linked : m.phase = .live → m.writer.isSome = true :=
      (hsound.settled ready).writer_isSome.mpr
    exact (Outlook.Allows.discarded link clock linked rfl).passes
  | opened link ready connecting =>
    have hwriter := unlinked ready (by rw [connecting]; decide)
    exact passes_of_settled (by simp [sign?, transition, connecting])
      (passes_opened connecting hwriter) rfl (isReleasing_of_ready ready)
  | openedDraining link payload rest ready connecting =>
    have hwriter := unlinked ready (by rw [connecting]; decide)
    have hwrote : Outlook.Allows ⟨.live, some link, none⟩ (.wrote link) ⟨.live, some link, none⟩ :=
      .wrote link rfl rfl rfl
    exact passes_of_settled (by simp [sign?, transition, connecting])
      ((passes_opened connecting hwriter).append hwrote.passes) rfl rfl
  | failed error ready connecting =>
    have hwriter := unlinked ready (by rw [connecting]; decide)
    exact passes_of_transition .down (by simp) (.inr (connecting ▸ .failed)) hwriter rfl
      hwriter (isReleasing_of_ready ready) (by decide)
  | failedRetrying error ready connecting =>
    have hwriter := unlinked ready (by rw [connecting]; decide)
    have hdown := passes_transition (m.outlook none) .down clock
      (.inr (show Phase.Change m.phase .down from connecting ▸ .failed)) hwriter rfl (by decide)
    have hagain := passes_transition { m.outlook none with phase := .down } .connecting clock
      (.inr .restarted) hwriter rfl (by decide)
    exact passes_of_settled (by simp [sign?, outlook]) (hdown.append hagain) rfl rfl
  | released generation rest outcome busy =>
    have hsigns : signs clock ((m.resume rest).after [.log (closeRecord generation outcome)]).2 =
        signs clock (m.resume rest).2 := by simp [sign?]
    rw [hsigns]
    cases rest with
    | nothing => exact passes_of_silent (by simp [signs_resume]) rfl rfl rfl
    | _ =>
      simp only [Sound, busy] at hsound
      exact hsound.2.passes_resume
  | ignored _ stray => simp [hfits] at stray

end Manager

end PersistentLink
