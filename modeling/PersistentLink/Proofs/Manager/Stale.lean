import PersistentLink.Proofs.Manager.Handling

/-!
# Stale inputs

Attempts and links that were given up may still report, at any later time. What they report is
stale: it changes nothing in the books, and all that is done is to close the link that a late
success brings. So a run in which stale inputs come in is the run of the other inputs, with some
records and closes of its own in between.

What counts as stale is given by a limit on generations. It may be fixed, or the generation that
the manager has reached.

## Main definitions

- `Input.isBefore`: a report of an attempt or a link below the limit
- `Manager.closesLate`: the link that came with such a report is being closed
- `Manager.setsAside`: nothing comes of an input but that
- `Manager.Aloof`: nothing was done but to log and to close links
- `Manager.inputsOf`, `Manager.effectsOf`: part of a run

## Main results

- `Manager.step_of_setsAside`: what a stale input leads to in one step
- `Manager.Handling.of_isBefore`: what a stale input leads to in the end
- `Manager.Sound.run_timely`: the run without its stale inputs
- `Manager.Bounds.of_late`: what the stale inputs of a run lead to
-/

namespace PersistentLink

/-- A report of an attempt or a link whose generation is below the limit. -/
def Input.isBefore (limit : Nat) : Input → Bool
  | attemptFinished generation _ | linkEvent generation _ _ => generation < limit
  | _ => false

/-- The link that comes with an input. -/
def Input.link? : Input → Option LinkId
  | attemptFinished _ (.ok link) => some link
  | _ => none

namespace Effect

/-- The link whose writer is closed. -/
abbrev closing? : Effect → Option LinkId
  | .close link => some link
  | _ => none

/-- The links whose writers are closed, in order. -/
abbrev closings (effects : List Effect) : List LinkId :=
  seen closing? effects

/-- Whether a record is logged or the closing of a writer begins. -/
def isFaint : Effect → Bool
  | .log _ | .close _ => true
  | _ => false

end Effect

namespace Manager

open Effect

/-- A link is being closed that came too late, from an attempt below the limit. -/
def closesLate (limit : Nat) (m : Manager) : Bool :=
  match m.activity with
  | .closing generation .nothing => generation < limit
  | _ => false

/-- Whether nothing comes of an input but that a late link is closed. -/
def setsAside (limit : Nat) (m : Manager) (input : Input) : Bool :=
  m.closesLate limit || input.isBefore limit

/-- The books as they are when no late link is being closed. -/
def undisturbed (limit : Nat) (m : Manager) : Manager :=
  if m.closesLate limit then { m with activity := .ready } else m

/-- Nothing has changed in the books but what is under way, and nothing was done but to log and to
close the links listed. -/
structure Aloof (m : Manager) (links : List LinkId) (reaction : Reaction) : Prop where
  books_eq : reaction.1 = { m with activity := reaction.1.activity }
  faint : ∀ effect ∈ reaction.2, effect.isFaint = true
  closings_eq : closings reaction.2 = links

variable {m : Manager} {limit : Nat} {input : Input}

/-- Who only logs and closes links starts nothing. -/
theorem Aloof.started_eq {links : List LinkId} {reaction : Reaction}
    (h : m.Aloof links reaction) : attempts reaction.2 = [] ∧ readers reaction.2 = [] := by
  simp only [attempts, readers, seen, List.filterMap_eq_nil_iff]
  refine ⟨fun effect hmem => ?_, fun effect hmem => ?_⟩
  · have hfaint := h.faint effect hmem
    cases effect <;> simp_all [isFaint, attempt?]
  · have hfaint := h.faint effect hmem
    cases effect <;> simp_all [isFaint, reader?]

/-! ## One step -/

/-- A manager with nothing under way is the same with nothing under way. -/
theorem with_ready (ready : m.activity = .ready) : { m with activity := .ready } = m :=
  congrArg (fun activity => { m with activity }) ready.symm

theorem undisturbed_of_not_closesLate (h : m.closesLate limit = false) :
    m.undisturbed limit = m := by
  simp [undisturbed, h]

theorem not_closesLate_of_ready (ready : m.activity = .ready) : m.closesLate limit = false := by
  simp [closesLate, ready]

theorem exists_closing_of_closesLate (h : m.closesLate limit = true) :
    ∃ generation, m.activity = .closing generation .nothing ∧ generation < limit := by
  unfold closesLate at h
  split at h
  · rename_i generation busy
    exact ⟨generation, busy, of_decide_eq_true h⟩
  · exact absurd h Bool.false_ne_true

/-- The links whose closing an input leads to, if it is stale. -/
def lateLinks (m : Manager) (input : Input) : List LinkId :=
  if m.activity = .ready then input.link?.toList else []

/-- An input that is ignored leads to nothing. -/
theorem aloof_of_stray (stray : m.fits input = false) :
    (m.step input).1.undisturbed limit = m.undisturbed limit ∧
      m.Aloof [] (m.step input) := by
  rw [step_of_stray stray]
  exact ⟨rfl, rfl, by simp, rfl⟩

/-- A report from below the limit is stale, as the limit is not above the present generation. It is
logged, and the closing of the link begins that comes with it. -/
theorem step_of_isBefore (ready : m.activity = .ready) (hlimit : limit ≤ m.generation)
    (before : input.isBefore limit = true) :
    ∃ record, input.link? = none ∧ m.step input = (m, [.log record]) ∨
      ∃ generation link, input.link? = some link ∧ generation < limit ∧
        m.step input =
          ({ m with activity := .closing generation .nothing }, [.log record, .close link]) := by
  cases input with
  | attemptFinished generation result =>
    have hlt : generation < limit := of_decide_eq_true before
    have stale : ¬(generation = m.generation ∧ m.phase = .connecting) := by omega
    simp only [step, ready, receive, attemptFinished, if_neg stale]
    cases result with
    | ok link => exact ⟨_, .inr ⟨generation, link, rfl, hlt, rfl⟩⟩
    | error error => exact ⟨_, .inl ⟨rfl, rfl⟩⟩
  | linkEvent generation event panicking =>
    have hlt : generation < limit := of_decide_eq_true before
    have stale : generation ≠ m.generation := by omega
    simp only [step, ready, receive, linkReported, if_neg stale]
    exact ⟨_, .inl ⟨rfl, rfl⟩⟩
  | _ => exact absurd before Bool.false_ne_true

/-- Of an input that is set aside nothing comes but the closing of the link that it brings. -/
theorem step_of_setsAside (hlimit : limit ≤ m.generation)
    (late : m.setsAside limit input = true) :
    (m.step input).1.undisturbed limit = m.undisturbed limit ∧
      m.Aloof (m.lateLinks input) (m.step input) := by
  by_cases closing : m.closesLate limit = true
  · obtain ⟨generation, busy, hlt⟩ := exists_closing_of_closesLate closing
    have hnone : m.lateLinks input = [] := by simp [lateLinks, busy]
    rw [hnone]
    cases input with
    | closed outcome =>
      simp only [step, busy, resume]
      refine ⟨?_, rfl, by simp [isFaint], rfl⟩
      simp [undisturbed, closesLate, busy, hlt]
    | _ => exact aloof_of_stray (by simp [fits, busy])
  · have before : input.isBefore limit = true := by simpa [setsAside, closing] using late
    by_cases ready : m.activity = .ready
    · rw [undisturbed_of_not_closesLate (not_closesLate_of_ready ready), lateLinks, if_pos ready]
      obtain ⟨record, ⟨hlink, hstep⟩ | ⟨generation, link, hlink, hlt, hstep⟩⟩ :=
        step_of_isBefore ready hlimit before
      · rw [hstep, hlink]
        exact ⟨undisturbed_of_not_closesLate (not_closesLate_of_ready ready), rfl,
          by simp [isFaint], rfl⟩
      · rw [hstep, hlink]
        refine ⟨?_, rfl, by simp [isFaint], rfl⟩
        simp only [undisturbed, closesLate, hlt, decide_true, if_true]
        exact with_ready ready
    · -- the report comes while the manager is busy with something else
      rw [lateLinks, if_neg ready]
      refine aloof_of_stray ?_
      cases busy : m.activity <;> cases input <;> simp_all [fits, Input.isBefore]

/-- A late link is closed because an attempt reported it, or it was being closed before. -/
theorem Turn.of_closes_nothing {reaction : Reaction} (turn : Turn m input reaction)
    {generation : Nat} (busy : reaction.1.activity = .closing generation .nothing) :
    reaction.1 = { m with activity := .closing generation .nothing } ∧
      (m.activity = .closing generation .nothing ∨
        ∃ link, input = .attemptFinished generation (.ok link)) := by
  cases turn with
  | staleSuccess other link =>
    obtain rfl : other = generation := by simpa using busy
    exact ⟨rfl, .inr ⟨link, rfl⟩⟩
  | ignored =>
    exact ⟨congrArg (fun activity => { m with activity }) busy, .inl busy⟩
  | dismissing order => cases order <;> simp at busy
  | dismissed order => cases order <;> simp [resume, settleReset] at busy
  | released _ rest =>
    cases rest <;>
      simp [resume, settleReset, settleLost, settleClosed, beginAttempt] at busy
  | _ => simp_all [beginAttempt]

/-! ## Handling a stale input -/

/-- **A stale input changes nothing.** Once it has been handled, the books are what they were, and
nothing was done but to log and to close the link that came with it, if any. -/
theorem Handling.of_isBefore {outcomes : List Input} (h : m.Handling input outcomes)
    (before : input.isBefore m.generation = true) :
    (m.run (input :: outcomes)).1 = m ∧
      (∀ effect ∈ (m.run (input :: outcomes)).2, effect.isFaint = true) ∧
      closings (m.run (input :: outcomes)).2 = input.link?.toList := by
  have hlasts := h.lasts
  have finished := h.finished
  rw [run_cons] at finished ⊢
  obtain ⟨record, ⟨hlink, hstep⟩ | ⟨generation, link, hlink, -, hstep⟩⟩ :=
    step_of_isBefore h.ready (Nat.le_refl _) before
  · rw [hstep] at hlasts ⊢
    obtain rfl := eq_nil_of_lasts hlasts fun busy => busy.1 h.ready
    exact ⟨rfl, by simp [isFaint], by rw [hlink]; rfl⟩
  · -- the link that came with the input is being closed, and that is all there is to do
    rw [hstep] at hlasts finished ⊢
    obtain ⟨closed, hrun⟩ := run_of_closing rfl hlasts finished
    rw [hrun]
    exact ⟨with_ready h.ready, by simp [resume, isFaint], by rw [hlink]; rfl⟩

/-! ## Part of a run -/

/-- The inputs of a run that are of a kind. -/
def inputsOf (kind : Manager → Input → Bool) (m : Manager) : List Input → List Input
  | [] => []
  | input :: rest =>
    (if kind m input then [input] else []) ++ (m.step input).1.inputsOf kind rest

/-- What a run does because of the inputs of a kind. -/
def effectsOf (kind : Manager → Input → Bool) (m : Manager) : List Input → List Effect
  | [] => []
  | input :: rest =>
    (if kind m input then (m.step input).2 else []) ++ (m.step input).1.effectsOf kind rest

theorem inputsOf_append (kind : Manager → Input → Bool) (m : Manager) (past later : List Input) :
    m.inputsOf kind (past ++ later) =
      m.inputsOf kind past ++ (m.run past).1.inputsOf kind later := by
  induction past generalizing m with
  | nil => rfl
  | cons input rest ih =>
    rw [List.cons_append, inputsOf, ih, inputsOf, run_cons, List.append_assoc]
    rfl

/-- An input is set aside under the limit that holds when it comes in. -/
def isLate (limit : Manager → Nat) (m : Manager) (input : Input) : Bool :=
  m.setsAside (limit m) input

/-- An input is not set aside. -/
def isTimely (limit : Manager → Nat) (m : Manager) (input : Input) : Bool :=
  !m.setsAside (limit m) input

/-- A report from below the limit that is handled. -/
def isLateReport (limit : Manager → Nat) (m : Manager) (input : Input) : Bool :=
  decide (m.activity = .ready) && input.isBefore (limit m)

section Erasure

variable {limit : Manager → Nat}

/-- The limit is a matter of the books only, and is not above the generation in a run. -/
structure Bounds (limit : Manager → Nat) (m : Manager) : Prop where
  with_activity : ∀ (m : Manager) (activity : Activity), limit { m with activity } = limit m
  le_generation : ∀ inputs, limit (m.run inputs).1 ≤ (m.run inputs).1.generation

theorem bounds_generation (m : Manager) : Bounds generation m :=
  ⟨fun _ _ => rfl, fun _ => Nat.le_refl _⟩

theorem Sound.bounds_const (h : m.Sound) {since : Nat} (hsince : since ≤ m.generation) :
    Bounds (fun _ => since) m :=
  ⟨fun _ _ => rfl, fun inputs => Nat.le_trans hsince (h.generation_le_run inputs)⟩

theorem Bounds.step (h : Bounds limit m) (input : Input) : Bounds limit (m.step input).1 := by
  refine ⟨h.with_activity, fun inputs => ?_⟩
  have hle := h.le_generation (input :: inputs)
  rwa [run_cons] at hle

theorem Bounds.le (h : Bounds limit m) : limit m ≤ m.generation :=
  h.le_generation []

theorem Bounds.eq_of_late (h : Bounds limit m) (input : Input)
    (late : isLate limit m input = true) : limit (m.step input).1 = limit m := by
  rw [(step_of_setsAside h.le late).2.books_eq]
  exact h.with_activity m _

/-- A timely input does not lead to the closing of a late link. -/
theorem Bounds.not_closesLate (h : Bounds limit m) (hsound : m.Sound) {input : Input}
    (timely : m.setsAside (limit m) input = false) :
    (m.step input).1.closesLate (limit (m.step input).1) = false := by
  rw [setsAside, Bool.or_eq_false_iff] at timely
  obtain ⟨hclosing, hbefore⟩ := timely
  refine Bool.eq_false_iff.mpr fun closing => ?_
  obtain ⟨generation, busy, hlt⟩ := exists_closing_of_closesLate closing
  obtain ⟨hbooks, hsource⟩ := (hsound.turn input).of_closes_nothing busy
  rw [hbooks, h.with_activity] at hlt
  obtain hearlier | ⟨link, rfl⟩ := hsource
  · simp [closesLate, hearlier, hlt] at hclosing
  · simp [Input.isBefore, hlt] at hbefore

/-- **Stale inputs can be erased.** The run without its stale inputs leaves the same books, and does
what the run does but for what came of the stale inputs. -/
theorem Sound.run_timely (h : m.Sound) (hlimit : Bounds limit m) (inputs : List Input) :
    (m.undisturbed (limit m)).run (m.inputsOf (isTimely limit) inputs) =
      ((m.run inputs).1.undisturbed (limit (m.run inputs).1),
        m.effectsOf (isTimely limit) inputs) := by
  induction inputs generalizing m with
  | nil => rfl
  | cons input rest ih =>
    have hrest := ih (h.step input) (hlimit.step input)
    rw [inputsOf, effectsOf, run_cons, isTimely]
    cases late : m.setsAside (limit m) input with
    | true =>
      rw [hlimit.eq_of_late input late, (step_of_setsAside hlimit.le late).1] at hrest
      exact hrest
    | false =>
      have hbefore : m.closesLate (limit m) = false := (Bool.or_eq_false_iff.mp late).1
      rw [undisturbed_of_not_closesLate (hlimit.not_closesLate h late)] at hrest
      rw [undisturbed_of_not_closesLate hbefore]
      simp only [Bool.not_false, if_true, List.singleton_append]
      rw [run_cons, hrest]
      rfl

theorem lateLinks_eq (late : m.setsAside (limit m) input = true) :
    m.lateLinks input =
      (if isLateReport limit m input then [input] else []).filterMap Input.link? := by
  by_cases ready : m.activity = .ready
  · have before : input.isBefore (limit m) = true := by
      simpa [setsAside, not_closesLate_of_ready ready] using late
    rw [lateLinks, if_pos ready]
    cases hlink : input.link? <;> simp [isLateReport, ready, before, hlink]
  · simp [lateLinks, isLateReport, ready]

/-- **What comes of stale inputs.** Records are logged and links are closed, each as often as a
stale success that brings it is handled. -/
theorem Bounds.of_late (hlimit : Bounds limit m) (inputs : List Input) :
    (∀ effect ∈ m.effectsOf (isLate limit) inputs, effect.isFaint = true) ∧
      closings (m.effectsOf (isLate limit) inputs) =
        (m.inputsOf (isLateReport limit) inputs).filterMap Input.link? := by
  induction inputs generalizing m with
  | nil => exact ⟨by simp [effectsOf], rfl⟩
  | cons input rest ih =>
    obtain ⟨hfaint, hclosings⟩ := ih (hlimit.step input)
    rw [effectsOf, inputsOf, isLate]
    cases late : m.setsAside (limit m) input with
    | true =>
      have haloof := (step_of_setsAside hlimit.le late).2
      refine ⟨?_, ?_⟩
      · simp only [if_true, List.mem_append]
        rintro effect (hfirst | hlater)
        · exact haloof.faint effect hfirst
        · exact hfaint effect hlater
      · rw [List.filterMap_append, ← hclosings, ← lateLinks_eq late, ← haloof.closings_eq,
          if_pos rfl]
        exact List.filterMap_append
    | false =>
      have hnot : isLateReport limit m input = false := by
        simp [isLateReport, (Bool.or_eq_false_iff.mp late).2]
      rw [hnot]
      exact ⟨hfaint, hclosings⟩

end Erasure

end Manager

end PersistentLink
