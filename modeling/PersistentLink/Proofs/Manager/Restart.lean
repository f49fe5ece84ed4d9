import Mathlib.Data.Set.List
import PersistentLink.Proofs.Manager.Renaming
import PersistentLink.Proofs.Manager.Stale

/-!
# Starting afresh

A close releases everything. What a manager does after it, it does as a new manager would, one with
the same address and the same observers, that counts its generations from zero. Attempts and links
from before the close may still report; nothing comes of that but the closing of late links.

The books of the two managers are the same but for one thing: what started the last attempt is
never forgotten. It is not looked at before another attempt starts, and is replaced by that.

## Main definitions

- `Manager.Alike`: books that differ in nothing that matters
- `Manager.Mirrors`: a run that follows the run of another manager

## Main results

- `Manager.Alike.run`: managers with books alike do the same
- `Manager.Handling.of_close`: the books after a close
- `Manager.close_starts_afresh`: a manager after a close, and a new manager
-/

namespace PersistentLink.Manager

open Effect

/-- The books are the same, but for what started the last attempt while the connection is idle. -/
def Alike (m other : Manager) : Prop :=
  ∃ trigger, other = { m with trigger } ∧ (m.phase ≠ .idle → trigger = m.trigger)

variable {m other : Manager} {input : Input}

theorem Alike.refl (m : Manager) : Alike m m :=
  ⟨m.trigger, rfl, fun _ => rfl⟩

/-! ## An idle manager -/

/-- The books of a manager that holds and awaits nothing. -/
def atRest (url : String) (observers : List ObserverId) (generation : Nat) (trigger : Trigger)
    (activity : Activity) : Manager :=
  { url, observers, generation, trigger, activity }

theorem Settled.eq_atRest (h : m.Settled) (idle : m.phase = .idle) :
    m = atRest m.url m.observers m.generation m.trigger m.activity := by
  have hlive : m.phase ≠ .live := by rw [idle]; decide
  have hconnecting : m.phase ≠ .connecting := by rw [idle]; decide
  have hattempting : m.attempting = false := by
    rw [← Bool.not_eq_true, h.attempting_iff]
    exact hconnecting
  obtain ⟨hwriter, hreader⟩ := h.unlinked hlive
  have hqueue := h.queue_eq (.inr idle)
  have hwaiters := h.waiters_eq hconnecting
  cases m
  subst idle hattempting hwriter hreader hqueue hwaiters
  rfl

/-- An idle manager is closing a late link, if anything. -/
theorem Sound.settled_of_idle (h : m.Sound) (idle : m.phase = .idle) :
    m.Settled ∧ (m.activity = .ready ∨ m.activity = .ended ∨
      ∃ generation, m.activity = .closing generation .nothing) := by
  cases busy : m.activity with
  | ready => exact ⟨h.settled busy, .inl rfl⟩
  | ended => exact ⟨(h.settled_of_ended busy).1, .inr (.inl rfl)⟩
  | writing payload =>
    simp only [Sound, busy] at h
    exact absurd (h.2.symm.trans idle) (by decide)
  | draining payload flushed =>
    exact absurd ((h.linked busy).phase_eq.symm.trans idle) (by decide)
  | closing generation rest =>
    simp only [Sound, busy] at h
    cases rest with
    | nothing => exact ⟨h, .inr (.inr ⟨generation, rfl⟩)⟩
    | _ => exact absurd (h.2.phase_eq.symm.trans idle) (by decide)

/-- Effects that are the same, and books that are alike. -/
def AlikeReactions (first second : Reaction) : Prop :=
  second.2 = first.2 ∧ Alike first.1 second.1

section AtRest

variable (url : String) (observers : List ObserverId) (generation : Nat) (first second : Trigger)

theorem alike_atRest (activity : Activity) :
    Alike (atRest url observers generation first activity)
      (atRest url observers generation second activity) :=
  ⟨second, rfl, fun hne => absurd rfl hne⟩

/-- An idle manager does not look at what started the last attempt. -/
theorem alike_receive_atRest (input : Input) :
    AlikeReactions ((atRest url observers generation first .ready).receive input)
      ((atRest url observers generation second .ready).receive input) := by
  have hrest := alike_atRest url observers generation first second
  cases input with
  | command command =>
    cases command with
    | connect | send => exact ⟨rfl, .refl _⟩
    | close | snapshot => exact ⟨rfl, alike_atRest url observers _ first second .ready⟩
    | addObserver observer =>
      exact ⟨rfl, alike_atRest url (observers ++ [observer]) _ first second .ready⟩
  | attemptFinished tag result =>
    cases result <;>
      simpa [receive, attemptFinished, atRest, AlikeReactions] using hrest _
  | linkEvent tag event panicking =>
    by_cases present : tag = generation
    · cases event <;> simpa [receive, linkReported, atRest, present] using ⟨rfl, hrest .ready⟩
    · simpa [receive, linkReported, atRest, present] using ⟨rfl, hrest .ready⟩
  | commandsEnded => exact ⟨rfl, alike_atRest url observers _ first second .ended⟩
  | written | closed => exact ⟨rfl, hrest .ready⟩

end AtRest

/-- Managers with books alike do the same with an input, and their books stay alike. -/
theorem Alike.step (h : Alike m other) (hsound : m.Sound) (input : Input) :
    AlikeReactions (m.step input) (other.step input) := by
  obtain ⟨trigger, rfl, hsame⟩ := h
  by_cases idle : m.phase = .idle
  · obtain ⟨hsettled, hactivity⟩ := hsound.settled_of_idle idle
    have hrest := hsettled.eq_atRest idle
    have halike := alike_atRest m.url m.observers m.generation m.trigger trigger
    obtain ready | ended | ⟨generation, busy⟩ := hactivity
    · rw [ready] at hrest
      rw [hrest]
      exact alike_receive_atRest m.url m.observers m.generation m.trigger trigger input
    · rw [ended] at hrest
      rw [hrest]
      cases input <;> exact ⟨rfl, halike .ended⟩
    · rw [busy] at hrest
      rw [hrest]
      cases input with
      | closed outcome => exact ⟨rfl, halike .ready⟩
      | _ => exact ⟨rfl, halike (.closing generation .nothing)⟩
  · have hother : { m with trigger } = m :=
      congrArg (fun trigger => { m with trigger }) (hsame idle)
    rw [hother]
    exact ⟨rfl, .refl _⟩

/-- Managers with books alike do the same for good. -/
theorem Alike.run (h : Alike m other) (hsound : m.Sound) (inputs : List Input) :
    AlikeReactions (m.run inputs) (other.run inputs) := by
  induction inputs generalizing m other with
  | nil => exact ⟨rfl, h⟩
  | cons input rest ih =>
    obtain ⟨hsame, hnext⟩ := h.step hsound input
    obtain ⟨hlater, hlast⟩ := ih hnext (hsound.step input)
    rw [run_cons, run_cons]
    refine ⟨?_, hlast⟩
    rw [Reaction.after_snd, Reaction.after_snd, hsame, hlater]

/-! ## After a close -/

theorem Turn.url_eq {reaction : Reaction} (turn : Turn m input reaction) :
    reaction.1.url = m.url := by
  cases turn with
  | dismissed order => cases order <;> rfl
  | released _ rest => cases rest <;> rfl
  | _ => rfl

/-- A manager keeps to its address. -/
theorem Sound.url_run (h : m.Sound) (inputs : List Input) : (m.run inputs).1.url = m.url := by
  induction inputs using List.reverseRecOn with
  | nil => rfl
  | append_singleton inputs input ih =>
    rw [run_concat_fst]
    exact ((h.run inputs).turn input).url_eq.trans ih

/-- After a close the manager is at rest, under the next generation. -/
theorem Handling.of_close {call : CallId} {outcomes : List Input} (hsound : m.Sound)
    (h : m.Handling (.command (.close call)) outcomes) :
    (∃ trigger, (m.run (.command (.close call) :: outcomes)).1 =
      atRest m.url m.observers (m.generation + 1) trigger .ready) ∧
      attempts (m.run (.command (.close call) :: outcomes)).2 = [] ∧
      readers (m.run (.command (.close call) :: outcomes)).2 = [] := by
  have hturn := hsound.turn (.command (.close call))
  have hafter := hsound.run (.command (.close call) :: outcomes)
  obtain ⟨ready, hlasts, finished⟩ := h
  rw [run_cons] at finished hafter ⊢
  generalize m.step (.command (.close call)) = reaction at hturn hlasts finished hafter
  -- the phase is idle in the end, and then nothing is held or awaited
  have at_rest {final : Manager} (hfinal : final.Sound) (idle : final.phase = .idle)
      (hready : final.activity = .ready) (hurl : final.url = m.url)
      (hobservers : final.observers = m.observers)
      (hgeneration : final.generation = m.generation + 1) :
      ∃ trigger, final = atRest m.url m.observers (m.generation + 1) trigger .ready := by
    have hrest := (hfinal.settled hready).eq_atRest idle
    rw [hready, hurl, hobservers, hgeneration] at hrest
    exact ⟨_, hrest⟩
  cases hturn with
  | dismissing order link =>
    cases order
    obtain ⟨record, hrun⟩ := run_of_closing rfl hlasts finished
    rw [hrun] at hafter ⊢
    exact ⟨at_rest hafter rfl rfl rfl rfl rfl, by simp [attempt?, attempts_resume],
      by simp [reader?]⟩
  | dismissed order =>
    cases order
    obtain rfl := eq_nil_of_lasts hlasts (not_busy_resume _)
    exact ⟨at_rest hafter rfl rfl rfl rfl rfl, by simp [attempt?, attempts_resume, apply_ite],
      by simp [reader?, apply_ite]⟩
  | ignored _ stray => simp [fits, ready] at stray

/-- The timely inputs of a run are those of another manager's run, with all generations shifted, and
they lead to the same. -/
structure Mirrors (since : Nat) (fresh m : Manager) (inputs continuation : List Input) : Prop where
  inputs_eq : m.inputsOf (isTimely fun _ => since) inputs =
    continuation.map (Input.shift since)
  effects_eq : m.effectsOf (isTimely fun _ => since) inputs =
    (fresh.run continuation).2.map (Effect.shift since)
  alike : Alike ((fresh.run continuation).1.shift since) ((m.run inputs).1.undisturbed since)

theorem exists_shift_eq {since : Nat} (h : input.isBefore since = false) :
    ∃ other : Input, other.shift since = input := by
  cases input with
  | attemptFinished generation result =>
    have hle : since ≤ generation := by simpa [Input.isBefore] using h
    exact ⟨.attemptFinished (generation - since) result, by simp [hle]⟩
  | linkEvent generation event panicking =>
    have hle : since ≤ generation := by simpa [Input.isBefore] using h
    exact ⟨.linkEvent (generation - since) event panicking, by simp [hle]⟩
  | command command => exact ⟨.command command, rfl⟩
  | commandsEnded => exact ⟨.commandsEnded, rfl⟩
  | written result => exact ⟨.written result, rfl⟩
  | closed outcome => exact ⟨.closed outcome, rfl⟩

theorem isBefore_of_mem_timely {since : Nat} {inputs : List Input}
    (hmem : input ∈ m.inputsOf (isTimely fun _ => since) inputs) :
    input.isBefore since = false := by
  induction inputs generalizing m with
  | nil => simp [inputsOf] at hmem
  | cons first rest ih =>
    rw [inputsOf, List.mem_append] at hmem
    obtain hfirst | hlater := hmem
    · split at hfirst
      · rename_i timely
        obtain rfl := List.mem_singleton.mp hfirst
        simp only [isTimely, setsAside, Bool.not_eq_true', Bool.or_eq_false_iff] at timely
        exact timely.2
      · exact absurd hfirst List.not_mem_nil
    · exact ih hlater

theorem exists_continuation (m : Manager) (since : Nat) (inputs : List Input) :
    ∃ continuation : List Input,
      m.inputsOf (isTimely fun _ => since) inputs = continuation.map (Input.shift since) := by
  have hrange : m.inputsOf (isTimely fun _ => since) inputs ∈
      Set.range (List.map (Input.shift since)) := by
    rw [Set.range_list_map]
    exact fun input hmem => exists_shift_eq (isBefore_of_mem_timely hmem)
  obtain ⟨continuation, hcontinuation⟩ := hrange
  exact ⟨continuation, hcontinuation.symm⟩

/-- A manager at rest does what a new one does that counts its generations from zero. -/
theorem alikeReactions_atRest (url : String) (observers : List ObserverId) (since : Nat)
    (trigger : Trigger) (continuation : List Input) :
    AlikeReactions ((run { url, observers } continuation).shift since)
      ((atRest url observers since trigger .ready).run (continuation.map (Input.shift since))) := by
  have hsound : Sound (atRest url observers since .caller .ready) :=
    of_settled (settled_of_resting (.inl ⟨rfl, rfl⟩) rfl rfl rfl rfl) rfl
  have hfresh : shift since { url, observers } = atRest url observers since .caller .ready := by
    simp [shift, atRest]
  rw [← run_shift, hfresh]
  exact (alike_atRest url observers since .caller trigger .ready).run hsound _

/-- **A close is a fresh start.** What a manager does after a close, a new manager with the same
address and the same observers does, all generations shifted by the one that the close has reached.
Attempts and links from before have earlier generations. Their reports may come in at any time
after, and in any number, and all that comes of them is that late links are closed. -/
theorem close_starts_afresh (url : String) {past outcomes : List Input} {call : CallId}
    (h : (run { url } past).1.Handling (.command (.close call)) outcomes) :
    let history := past ++ .command (.close call) :: outcomes
    let closed := (run { url } history).1
    let since := closed.generation
    let fresh : Manager := { url, observers := (run { url } past).1.observers }
    (∀ generation, generation ∈ attempts (run { url } history).2 ∨
      generation ∈ readers (run { url } history).2 → generation < since) ∧
    (∀ continuation : List Input,
      (closed.run (continuation.map (Input.shift since))).2 =
        (fresh.run continuation).2.map (Effect.shift since)) ∧
    ∀ inputs, (∃ continuation, Mirrors since fresh closed inputs continuation) ∧
      (∀ effect ∈ closed.effectsOf (isLate fun _ => since) inputs, effect.isFaint = true) ∧
      closings (closed.effectsOf (isLate fun _ => since) inputs) =
        (closed.inputsOf (isLateReport fun _ => since) inputs).filterMap Input.link? := by
  intro history closed since fresh
  have hsound := sound_run url past
  obtain ⟨⟨trigger, hrest⟩, hattempts, hreaders⟩ := h.of_close hsound
  have hhistory : run { url } history =
      ((run { url } past).1.run (.command (.close call) :: outcomes)).after
        (run { url } past).2 := run_append _ _ _
  have hclosed : closed = atRest url fresh.observers since trigger .ready := by
    have hurl := (sound_new url).url_run past
    simp only [closed, since, hhistory, Reaction.after_fst, hrest, hurl, fresh]
    rfl
  have hsince : since = (run { url } past).1.generation + 1 := by
    simp only [since, closed, hhistory, Reaction.after_fst, hrest]
    rfl
  have mirrored (continuation : List Input) :
      AlikeReactions ((fresh.run continuation).shift since)
        (closed.run (continuation.map (Input.shift since))) := by
    rw [hclosed]
    exact alikeReactions_atRest url fresh.observers since trigger continuation
  have hbounds : Bounds (fun _ => since) closed := by
    have hsound := sound_run url history
    exact hsound.bounds_const (Nat.le_refl _)
  refine ⟨fun generation hstarted => ?_, fun continuation => (mirrored continuation).1,
    fun inputs => ⟨?_, hbounds.of_late inputs⟩⟩
  · -- the close itself starts nothing
    rw [hhistory] at hstarted
    simp only [Reaction.after_snd, seen_append, hattempts, hreaders, List.append_nil] at hstarted
    rw [hsince]
    exact Nat.lt_succ_of_le ((sound_new url).le_generation_of_started hstarted)
  · obtain ⟨continuation, hinputs⟩ := exists_continuation closed since inputs
    have hready : closed.closesLate since = false := by rw [hclosed]; rfl
    have htimely := (sound_run url history).run_timely hbounds inputs
    rw [undisturbed_of_not_closesLate hready, hinputs] at htimely
    obtain ⟨heffects, halike⟩ := mirrored continuation
    rw [htimely] at heffects halike
    exact ⟨continuation, hinputs, heffects, halike⟩

/-- A close overtakes an attempt. The link that it opens comes late and is closed, and in the middle
of that nothing else is handled. The next attempt is the third in the count, and the first one of a
new manager. -/
theorem close_starts_afresh_overtaking :
    let url := "ws://localhost:80/"
    let past : List Input := [.command (.addObserver 4), .command (.connect 0)]
    let history := past ++ [.command (.close 1)]
    let closed := (run { url } history).1
    let inputs : List Input := [.attemptFinished 1 (.ok 7), .closed .timedOut,
      .command (.connect 2), .attemptFinished 3 (.error .connectTimeout)]
    let continuation : List Input :=
      [.command (.connect 2), .attemptFinished 1 (.error .connectTimeout)]
    closed.generation = 2 ∧
      closed.inputsOf (isTimely fun _ => 2) inputs = continuation.map (Input.shift 2) ∧
      (∃ continuation, Mirrors 2 { url, observers := [4] } closed inputs continuation) ∧
      closings (closed.effectsOf (isLate fun _ => 2) inputs) = [7] := by
  intro url past history closed inputs continuation
  have handling : (run { url } past).1.Handling (.command (.close 1)) [] :=
    ⟨rfl, trivial, fun busy => busy.1 rfl⟩
  have hclose := close_starts_afresh url handling
  exact ⟨rfl, rfl, (hclose.2.2 inputs).1, (hclose.2.2 inputs).2.2⟩

end PersistentLink.Manager
