import Mathlib.Data.List.Nodup
import PersistentLink.Proofs.Ensemble.Channel
import PersistentLink.Proofs.Manager.Stale

/-!
# The exchange of messages

Attempts and readers post messages to the manager. Here nothing is assumed of when a message
arrives, nor that it arrives at all, and a task that was given up may still post. Whatever holds of
this exchange holds in particular where messages are handled in the order in which they were posted.

## Main definitions

- `Exchange`: the manager, the tasks that may still post, and the messages in flight
- `Exchange.Step`: what any party can do next
- `Exchange.Runs`: what the parties did, and where that has led

## Main results

- `Exchange.Step.inOrder`: what a step keeps
- `Exchange.stale_reports_erased`: what is in flight, and what comes of stale messages
- `Exchange.exists_runs_of_run`: a run of all parties is a run of the exchange
-/

namespace PersistentLink

/-- Whether an input is a report of an attempt or a link. -/
def Input.isReport : Input → Bool
  | attemptFinished .. | linkEvent .. => true
  | _ => false

/-- A manager, tasks that may still post, and messages in flight. -/
structure Exchange where
  /-- the books of the manager -/
  manager : Manager
  /-- generations of the attempts that have not reported -/
  attempts : List Nat := []
  /-- generations of the links that were ever read -/
  readers : List Nat := []
  /-- messages that have not been handled -/
  inFlight : List Message := []

namespace Exchange

open Manager

/-- What a party does. -/
inductive Act
  /-- the manager is fed an input -/
  | fed (input : Input)
  /-- a task posts a message -/
  | posted (message : Message)

/-- The input that the manager is fed. -/
def Act.input? : Act → Option Input
  | fed input => some input
  | posted _ => none

/-- The message that is posted. -/
def Act.message? : Act → Option Message
  | fed _ => none
  | posted message => some message

/-- The inputs that the manager was fed, in order. -/
def inputs (acts : List Act) : List Input :=
  acts.filterMap Act.input?

/-- The messages that were posted, in order. -/
def posts (acts : List Act) : List Message :=
  acts.filterMap Act.message?

/-- The generations of the attempts that posted their end, in order. -/
def ends (messages : List Message) : List Nat :=
  messages.filterMap Message.ended?

/-- The manager handles an input, and starts tasks. -/
def feed (e : Exchange) (input : Input) : Exchange :=
  { e with
    manager := (e.manager.step input).1
    attempts := e.attempts ++ Effect.attempts (e.manager.step input).2
    readers := e.readers ++ Effect.readers (e.manager.step input).2 }

/-- What any party can do next. -/
inductive Step (e : Exchange) : Act → Exchange → Prop
  -- a command, the end of all commands, or the outcome of a write or a close
  | own (input : Input) (unposted : input.isReport = false) : Step e (.fed input) (e.feed input)
  -- a message arrives, before or after others
  | arrive (before : List Message) (message : Message) (after : List Message)
      (panicking : List ObserverId) (ready : e.manager.activity = .ready)
      (hinFlight : e.inFlight = before ++ message :: after) :
    Step e (.fed (message.toInput panicking))
      ({ e with inFlight := before ++ after }.feed (message.toInput panicking))
  -- an attempt posts that it has ended
  | report (generation : Nat) (result : Except Failure LinkId)
      (awaited : generation ∈ e.attempts) :
    Step e (.posted (.attemptFinished generation result))
      { e with
        attempts := e.attempts.erase generation
        inFlight := e.inFlight ++ [.attemptFinished generation result] }
  -- a reader posts what its link has reported
  | pass (generation : Nat) (event : LinkEvent) (read : generation ∈ e.readers) :
    Step e (.posted (.linkEvent generation event))
      { e with inFlight := e.inFlight ++ [.linkEvent generation event] }

/-- What the parties did since the start, and where that has led. -/
inductive Runs (url : String) : List Act → Exchange → Prop
  | start : Runs url [] { manager := { url } }
  | concat {acts : List Act} {e next : Exchange} {act : Act} (past : Runs url acts e)
      (step : e.Step act next) : Runs url (acts ++ [act]) next

variable {url : String} {acts : List Act} {e next : Exchange} {act : Act}

@[simp]
theorem inputs_concat (acts : List Act) (act : Act) :
    inputs (acts ++ [act]) = inputs acts ++ act.input?.toList := by
  cases act <;> simp [inputs, Act.input?]

@[simp]
theorem posts_concat (acts : List Act) (act : Act) :
    posts (acts ++ [act]) = posts acts ++ act.message?.toList := by
  cases act <;> simp [posts, Act.message?]

@[simp]
theorem mem_ends {messages : List Message} {generation : Nat} :
    generation ∈ ends messages ↔ ∃ result, .attemptFinished generation result ∈ messages := by
  simp only [ends, List.mem_filterMap]
  constructor
  · rintro ⟨message, hmem, hended⟩
    cases message with
    | attemptFinished other result =>
      obtain rfl := Option.some.inj hended
      exact ⟨result, hmem⟩
    | linkEvent => simp [Message.ended?] at hended
  · rintro ⟨result, hmem⟩
    exact ⟨_, hmem, rfl⟩

/-- What is in flight is in order. -/
structure InOrder (acts : List Act) (e : Exchange) : Prop where
  sound : e.manager.Sound
  /-- messages and tasks are of the present generation or an earlier one -/
  inFlight_le : ∀ message ∈ e.inFlight, message.generation ≤ e.manager.generation
  attempts_le : ∀ generation ∈ ends (posts acts) ++ e.attempts, generation ≤ e.manager.generation
  readers_le : ∀ generation ∈ e.readers, generation ≤ e.manager.generation
  /-- an attempt posts once -/
  once : (ends (posts acts) ++ e.attempts).Nodup
  posted : e.inFlight.Sublist (posts acts)
  /-- the present attempt is awaited until its end is handled -/
  awaited : e.manager.generation ∈ ends e.inFlight ++ e.attempts → e.manager.phase = .connecting

theorem inOrder_start (url : String) : InOrder [] { manager := { url } } where
  sound := sound_new url
  inFlight_le := by simp
  attempts_le := by simp [ends, posts]
  readers_le := by simp
  once := by simp [ends, posts]
  posted := .slnil
  awaited := by simp

theorem InOrder.once_inFlight (h : InOrder acts e) : (ends e.inFlight ++ e.attempts).Nodup :=
  h.once.sublist ((h.posted.filterMap _).append_right _)

/-! ## One step -/

/-- Feeding the manager keeps what is in flight in order, if the end of the present attempt is not
left in flight once it has been handled. -/
theorem InOrder.feed (h : InOrder acts e) {input : Input} {rest : List Message}
    (hrest : rest.Sublist e.inFlight)
    (hended : ∀ result, input = .attemptFinished e.manager.generation result →
      e.manager.generation ∉ ends rest ++ e.attempts) :
    InOrder (acts ++ [.fed input]) ({ e with inFlight := rest }.feed input) := by
  have hturn := h.sound.turn input
  have hle : e.manager.generation ≤ (e.manager.step input).1.generation := by
    have hrun := h.sound.generation_le_run [input]
    rwa [run_singleton] at hrun
  have hposts : posts (acts ++ [.fed input]) = posts acts := by simp [Act.message?]
  have hpending : (ends rest ++ e.attempts).Sublist (ends e.inFlight ++ e.attempts) :=
    (hrest.filterMap _).append_right _
  constructor
  · exact h.sound.step input
  · intro message hmem
    exact Nat.le_trans (h.inFlight_le message (hrest.subset hmem)) hle
  · rw [hposts, Exchange.feed, ← List.append_assoc]
    intro generation hmem
    obtain hearlier | hnow := List.mem_append.mp hmem
    · exact Nat.le_trans (h.attempts_le generation hearlier) hle
    · exact Nat.le_of_eq (hturn.generation_of_attempt hnow).symm
  · intro generation hmem
    obtain hearlier | hnow := List.mem_append.mp hmem
    · exact Nat.le_trans (h.readers_le generation hearlier) hle
    · exact Nat.le_of_eq (hturn.generation_of_reader hnow).2.symm
  · rw [hposts, Exchange.feed, ← List.append_assoc]
    obtain hnone | ⟨hone, -, -⟩ := hturn.attempts_eq
    · simpa only [hnone, List.append_nil] using h.once
    · -- the attempt that starts is later than all there were
      rw [hone, List.nodup_append]
      refine ⟨h.once, by simp, fun generation hmem other hother => ?_⟩
      have hearlier := h.attempts_le generation hmem
      rw [List.mem_singleton.mp hother]
      omega
  · rw [hposts]
    exact hrest.trans h.posted
  · intro hmem
    rw [Exchange.feed, ← List.append_assoc] at hmem
    obtain hnone | ⟨-, -, connecting, -⟩ := hturn.attempts_eq
    · simp only [hnone, List.append_nil] at hmem
      have hposted := hpending.subset hmem
      have hsame : (e.manager.step input).1.generation = e.manager.generation := by
        have hsublist : (ends e.inFlight ++ e.attempts).Sublist (ends (posts acts) ++ e.attempts) :=
          (h.posted.filterMap _).append_right _
        exact Nat.le_antisymm (h.attempts_le _ (hsublist.subset hposted)) hle
      rw [hsame] at hmem hposted
      obtain connecting | ⟨result, hinput⟩ :=
        hturn.connecting_or_finished h.sound (h.awaited hposted) hsame
      · exact connecting
      · exact absurd hmem (hended result hinput)
    · exact connecting

/-- An attempt that posts its end is no longer to do so. -/
theorem ends_report_perm {generation : Nat} (awaited : generation ∈ e.attempts)
    (messages : List Message) (result : Except Failure LinkId) :
    (ends (messages ++ [.attemptFinished generation result]) ++ e.attempts.erase generation).Perm
      (ends messages ++ e.attempts) := by
  have hends : ends (messages ++ [.attemptFinished generation result]) =
      ends messages ++ [generation] := by
    simp [ends, Message.ended?]
  rw [hends, List.append_assoc]
  exact (List.perm_cons_erase awaited).symm.append_left _

/-- What is in flight stays in order. -/
theorem Step.inOrder (step : e.Step act next) (h : InOrder acts e) :
    InOrder (acts ++ [act]) next := by
  cases step with
  | own input unposted =>
    refine h.feed (List.Sublist.refl _) ?_
    rintro result rfl
    simp [Input.isReport] at unposted
  | arrive before message after panicking ready hinFlight =>
    refine h.feed ?_ ?_
    · rw [hinFlight]
      exact List.Sublist.append_left (List.sublist_cons_self _ _) _
    · -- the end of an attempt was in flight once
      intro result hinput
      obtain rfl : message = .attemptFinished e.manager.generation result := by
        cases message <;> simp_all [Message.toInput]
      have honce := h.once_inFlight
      have hperm : (ends e.inFlight).Perm (e.manager.generation :: ends (before ++ after)) := by
        rw [hinFlight]
        exact List.perm_middle.filterMap _
      exact (List.nodup_cons.mp ((hperm.append_right _).nodup_iff.mp honce)).1
  | report generation result awaited =>
    have hposts : posts (acts ++ [.posted (.attemptFinished generation result)]) =
        posts acts ++ [.attemptFinished generation result] := by simp [Act.message?]
    have hperm := ends_report_perm awaited (posts acts) result
    constructor
    · exact h.sound
    · intro message hmem
      obtain hearlier | hnow := List.mem_append.mp hmem
      · exact h.inFlight_le message hearlier
      · rw [List.mem_singleton.mp hnow]
        exact h.attempts_le generation (List.mem_append_right _ awaited)
    · intro other hmem
      rw [hposts] at hmem
      exact h.attempts_le other (hperm.mem_iff.mp hmem)
    · exact h.readers_le
    · rw [hposts]
      exact hperm.nodup_iff.mpr h.once
    · rw [hposts]
      exact h.posted.append_right _
    · intro hmem
      exact h.awaited ((ends_report_perm awaited e.inFlight result).mem_iff.mp hmem)
  | pass generation event read =>
    have hposts : posts (acts ++ [.posted (.linkEvent generation event)]) =
        posts acts ++ [.linkEvent generation event] := by simp [Act.message?]
    have hends (messages : List Message) :
        ends (messages ++ [.linkEvent generation event]) = ends messages := by
      simp [ends, Message.ended?]
    constructor
    · exact h.sound
    · intro message hmem
      obtain hearlier | hnow := List.mem_append.mp hmem
      · exact h.inFlight_le message hearlier
      · rw [List.mem_singleton.mp hnow]
        exact h.readers_le generation read
    · rw [hposts, hends]
      exact h.attempts_le
    · exact h.readers_le
    · rw [hposts, hends]
      exact h.once
    · rw [hposts]
      exact h.posted.append_right _
    · simp only [hends]
      exact h.awaited

/-! ## Runs -/

theorem Runs.inOrder (h : Runs url acts e) : InOrder acts e := by
  induction h with
  | start => exact inOrder_start url
  | concat past step ih => exact step.inOrder ih

theorem Step.manager_eq (step : e.Step act next) :
    next.manager = (e.manager.run act.input?.toList).1 := by
  cases step with
  | own | arrive => exact congrArg Prod.fst (e.manager.run_singleton _).symm
  | report | pass => rfl

theorem Runs.manager_eq (h : Runs url acts e) :
    e.manager = (Manager.run { url } (inputs acts)).1 := by
  induction h with
  | start => rfl
  | concat past step ih =>
    rw [inputs_concat, run_append, Reaction.after_fst, ← ih]
    exact step.manager_eq

/-! ## Erasing what is stale -/

/-- The same exchange, with no late link being closed, and with more in flight. -/
structure Erases (e last : Exchange) : Prop where
  manager_eq : last.manager = e.manager.undisturbed e.manager.generation
  attempts_eq : last.attempts = e.attempts
  readers_eq : last.readers = e.readers
  inFlight : e.inFlight.Sublist last.inFlight

theorem Erases.of_setsAside {last : Exchange} (h : Erases e last) {input : Input}
    {rest : List Message} (hrest : rest.Sublist e.inFlight)
    (late : e.manager.setsAside e.manager.generation input = true) :
    Erases ({ e with inFlight := rest }.feed input) last := by
  obtain ⟨hbooks, haloof⟩ := step_of_setsAside (Nat.le_refl _) late
  have hgeneration : (e.manager.step input).1.generation = e.manager.generation := by
    rw [haloof.books_eq]
  obtain ⟨hattempts, hreaders⟩ := haloof.started_eq
  constructor
  · rw [h.manager_eq, ← hbooks]
    exact congrArg (Manager.undisturbed · _) hgeneration.symm
  · simp only [feed, hattempts, List.append_nil, h.attempts_eq]
  · simp only [feed, hreaders, List.append_nil, h.readers_eq]
  · exact hrest.trans h.inFlight

theorem Erases.feed {last : Exchange} (h : Erases e last) (hsound : e.manager.Sound)
    {input : Input} {rest left : List Message} (hrest : rest.Sublist left)
    (timely : e.manager.setsAside e.manager.generation input = false) :
    Erases ({ e with inFlight := rest }.feed input)
      ({ last with inFlight := left }.feed input) := by
  have hmanager : last.manager = e.manager := by
    rw [h.manager_eq, undisturbed_of_not_closesLate (Bool.or_eq_false_iff.mp timely).1]
  have hafter := (bounds_generation e.manager).not_closesLate hsound timely
  constructor
  · simp only [Exchange.feed, hmanager]
    exact (undisturbed_of_not_closesLate hafter).symm
  · simp only [Exchange.feed, hmanager, h.attempts_eq]
  · simp only [Exchange.feed, hmanager, h.readers_eq]
  · exact hrest

/-- A message that is in flight among others is still there when there are more. -/
theorem exists_split {before after messages : List Message} {message : Message}
    (h : (before ++ message :: after).Sublist messages) :
    ∃ earlier later, messages = earlier ++ message :: later ∧
      (before ++ after).Sublist (earlier ++ later) := by
  obtain ⟨first, second, rfl, hbefore, hsecond⟩ := List.append_sublist_iff.mp h
  obtain ⟨third, fourth, rfl, hmem, hafter⟩ := List.cons_sublist_iff.mp hsecond
  obtain ⟨earlier, later, rfl⟩ := List.append_of_mem hmem
  refine ⟨first ++ earlier, later ++ fourth, by simp, ?_⟩
  rw [List.append_assoc]
  exact hbefore.append ((hafter.trans (List.sublist_append_right _ _)).trans
    (List.sublist_append_right _ _))

/-- A run of the exchange in which stale messages never arrive. -/
structure Erased (url : String) (acts : List Act) (e : Exchange) (erased : List Act)
    (last : Exchange) : Prop where
  runs : Runs url erased last
  erases : Erases e last
  posts_eq : posts erased = posts acts
  inputs_eq : inputs erased = inputsOf (isTimely generation) { url } (inputs acts)

/-- An input is an input of the erased run as well, unless it is stale. -/
theorem Erased.exists_of_fed {erased : List Act} {last : Exchange}
    (h : Erased url acts e erased last) (past : Runs url acts e) {input : Input}
    {rest : List Message} (hrest : rest.Sublist e.inFlight)
    (hstep : e.manager.setsAside e.manager.generation input = false → ∃ left : List Message,
      rest.Sublist left ∧ last.Step (.fed input) ({ last with inFlight := left }.feed input)) :
    ∃ erased last, Erased url (acts ++ [.fed input]) ({ e with inFlight := rest }.feed input)
      erased last := by
  have hposts : posts (acts ++ [.fed input]) = posts acts := by simp [Act.message?]
  have hinputs : inputsOf (isTimely generation) { url } (inputs (acts ++ [.fed input])) =
      inputs erased ++ if e.manager.setsAside e.manager.generation input then [] else [input] := by
    rw [inputs_concat, inputsOf_append, ← h.inputs_eq, ← past.manager_eq]
    cases hlate : e.manager.setsAside e.manager.generation input <;>
      simp [Act.input?, inputsOf, isTimely, hlate]
  cases late : e.manager.setsAside e.manager.generation input with
  | true =>
    refine ⟨erased, last, h.runs, h.erases.of_setsAside hrest late, ?_, ?_⟩
    · rw [hposts, h.posts_eq]
    · rw [hinputs, late, if_pos rfl, List.append_nil]
  | false =>
    obtain ⟨left, hleft, hfed⟩ := hstep late
    refine ⟨_, _, h.runs.concat hfed, h.erases.feed past.inOrder.sound hleft late, ?_, ?_⟩
    · rw [hposts, ← h.posts_eq]
      simp [Act.message?]
    · rw [hinputs, late, inputs_concat]
      rfl

/-- Every run is a run without stale messages, and what the stale ones have led to. -/
theorem Runs.exists_erased (h : Runs url acts e) :
    ∃ erased last, Erased url acts e erased last := by
  induction h with
  | start => exact ⟨[], _, .start, ⟨rfl, rfl, rfl, .slnil⟩, rfl, rfl⟩
  | @concat acts e next act past step ih =>
    obtain ⟨erased, last, herased⟩ := ih
    have hmore := herased.erases.inFlight
    -- a post is a post of the erased run as well
    have of_posted {message : Message} {next last' : Exchange}
        (hstep : last.Step (.posted message) last') (herases : Erases next last') :
        ∃ erased last, Erased url (acts ++ [.posted message]) next erased last := by
      refine ⟨_, _, herased.runs.concat hstep, herases, ?_, ?_⟩
      · rw [posts_concat, posts_concat, herased.posts_eq]
      · simpa [Act.input?] using herased.inputs_eq
    cases step with
    | own input unposted =>
      exact herased.exists_of_fed past (.refl _) fun _ => ⟨_, hmore, .own input unposted⟩
    | arrive before message after panicking ready hinFlight =>
      rw [hinFlight] at hmore
      refine herased.exists_of_fed past ?_ fun timely => ?_
      · rw [hinFlight]
        exact List.Sublist.append_left (List.sublist_cons_self _ _) _
      · obtain ⟨earlier, later, hsplit, hsub⟩ := exists_split hmore
        have hready : last.manager.activity = .ready := by
          rw [herased.erases.manager_eq,
            undisturbed_of_not_closesLate (not_closesLate_of_ready ready), ready]
        exact ⟨_, hsub, .arrive earlier message later panicking hready hsplit⟩
    | report generation result awaited =>
      obtain ⟨hmanager, hattempts, hreaders, -⟩ := herased.erases
      refine of_posted (.report generation result (hattempts ▸ awaited))
        ⟨hmanager, congrArg (List.erase · generation) hattempts, hreaders, hmore.append_right _⟩
    | pass generation event read =>
      obtain ⟨hmanager, hattempts, hreaders, -⟩ := herased.erases
      exact of_posted (.pass generation event (hreaders ▸ read))
        ⟨hmanager, hattempts, hreaders, hmore.append_right _⟩

/-- **Stale reports change nothing.** However the parties act, what is in flight is of the present
generation or an earlier one; an attempt posts its end once; and the end of the present attempt is
in flight only while the manager waits for it. A report of an earlier generation leaves the books as
they are, and all that is done is to log it and to close the link that it brings. So the parties may
as well act in such a way that no stale report ever arrives: the manager ends up with the same
books, and has done the same, but for the records and the closes that the stale reports have led
to. -/
theorem stale_reports_erased (url : String) {acts : List Act} {e : Exchange}
    (h : Runs url acts e) :
    (∀ message ∈ e.inFlight, message.generation ≤ e.manager.generation) ∧
    (ends (posts acts)).Nodup ∧
    (∀ result, .attemptFinished e.manager.generation result ∈ e.inFlight →
      e.manager.phase = .connecting) ∧
    (∀ input outcomes, input.isBefore e.manager.generation = true →
      e.manager.Handling input outcomes →
        e.manager.Aloof input.link?.toList (e.manager.step input) ∧
          e.manager.Aloof input.link?.toList (e.manager.run (input :: outcomes)) ∧
          (e.manager.run (input :: outcomes)).1 = e.manager) ∧
    let start : Manager := { url }
    let fed := inputs acts
    (start.run fed).1 = e.manager ∧
      (∃ erased last, Runs url erased last ∧ posts erased = posts acts ∧
        inputs erased = start.inputsOf (isTimely generation) fed ∧
        last.manager = e.manager.undisturbed e.manager.generation) ∧
      (start.run (start.inputsOf (isTimely generation) fed)).2 =
        start.effectsOf (isTimely generation) fed ∧
      (∀ effect ∈ start.effectsOf (isLate generation) fed, effect.isFaint = true) ∧
      Effect.closings (start.effectsOf (isLate generation) fed) =
        (start.inputsOf (isLateReport generation) fed).filterMap Input.link? := by
  have horder := h.inOrder
  refine ⟨horder.inFlight_le, (List.nodup_append.mp horder.once).1, fun result hmem => ?_,
    fun input outcomes before handling => ?_, ?_⟩
  · refine horder.awaited (List.mem_append_left _ ?_)
    exact mem_ends.mpr ⟨result, hmem⟩
  · obtain ⟨hbooks, hfaint, hclosings⟩ := handling.of_isBefore before
    have late : e.manager.setsAside e.manager.generation input = true := by
      simp [setsAside, before]
    have haloof := (step_of_setsAside (Nat.le_refl _) late).2
    rw [lateLinks, if_pos handling.ready] at haloof
    exact ⟨haloof, ⟨by rw [hbooks], hfaint, hclosings⟩, hbooks⟩
  · intro start fed
    have hbounds := bounds_generation start
    obtain ⟨erased, last, hruns, herases, hposts, hinputs⟩ := h.exists_erased
    have htimely := (sound_new url).run_timely hbounds fed
    rw [undisturbed_of_not_closesLate rfl] at htimely
    exact ⟨h.manager_eq.symm, ⟨erased, last, hruns, hposts, hinputs, herases.manager_eq⟩,
      congrArg Prod.snd htimely, hbounds.of_late fed⟩

/-- A close overtakes the success of an attempt, which is in flight when the next attempt starts. -/
theorem stale_reports_erased_overtaken :
    let url := "ws://localhost:80/"
    let acts : List Act := [.fed (.command (.connect 0)), .posted (.attemptFinished 1 (.ok 7)),
      .fed (.command (.close 1)), .fed (.command (.connect 2))]
    let m := (Manager.run { url } (inputs acts)).1
    let stale : Message := .attemptFinished 1 (.ok 7)
    ∃ e, Runs url acts e ∧ e.inFlight = [stale] ∧ e.manager = m ∧ stale.generation < m.generation ∧
      (m.run [.attemptFinished 1 (.ok 7), .closed .done]).1 = m := by
  intro url acts m stale
  have hstart : Runs url [] _ := .start
  have hconnect := hstart.concat (.own (.command (.connect 0)) rfl)
  have hreport := hconnect.concat (.report 1 (.ok 7) (by decide))
  have hclose := hreport.concat (.own (.command (.close 1)) rfl)
  have hruns := hclose.concat (.own (.command (.connect 2)) rfl)
  have hstale := stale_reports_erased url hruns
  refine ⟨_, hruns, rfl, rfl, by decide, ?_⟩
  have handling : m.Handling (.attemptFinished 1 (.ok 7)) [.closed .done] :=
    ⟨rfl, ⟨⟨by decide, by decide⟩, trivial⟩, fun busy => busy.1 rfl⟩
  exact (hstale.2.2.2.1 _ _ (by decide) handling).2.2

/-! ## The exchange between all parties -/

/-- The exchange knows of the tasks and messages of all parties. -/
structure Covers (e : Exchange) (parties : Ensemble) : Prop where
  manager_eq : parties.manager = e.manager
  inbox_eq : parties.inbox = e.inFlight
  attempts_sub : ∀ attempt ∈ parties.attempts, attempt.generation ∈ e.attempts
  nodup : (parties.attempts.map (·.generation)).Nodup
  readers_sub : ∀ task ∈ parties.readers, task.generation ∈ e.readers

variable {parties after : Ensemble} {effects : List Effect}

theorem Covers.feed (h : Covers e parties) (hle : ∀ generation ∈ e.attempts,
    generation ≤ e.manager.generation) (hsound : e.manager.Sound) (input : Input) :
    Covers (e.feed input) (parties.feed input).1 := by
  have hstep : parties.manager.step input = e.manager.step input := by rw [h.manager_eq]
  have hattempts := Ensemble.generations_foldl_absorb_sublist
    { parties with manager := (parties.manager.step input).1 } (parties.manager.step input).2
  constructor
  · rw [Ensemble.feed_manager, hstep]
    rfl
  · rw [Ensemble.feed_inbox, h.inbox_eq]
    rfl
  · intro attempt hmem
    have hgeneration := hattempts.subset (List.mem_map_of_mem hmem)
    rw [hstep] at hgeneration
    obtain hearlier | hnow := List.mem_append.mp hgeneration
    · obtain ⟨first, hfirst, hsame⟩ := List.mem_map.mp hearlier
      exact List.mem_append_left _ (hsame ▸ h.attempts_sub first hfirst)
    · exact List.mem_append_right _ hnow
  · refine List.Nodup.sublist hattempts ?_
    rw [hstep]
    obtain hnone | ⟨hone, -, -⟩ := (hsound.turn input).attempts_eq
    · simpa [hnone] using h.nodup
    · rw [hone, List.nodup_append]
      refine ⟨h.nodup, by simp, fun generation hmem other hother => ?_⟩
      obtain ⟨first, hfirst, rfl⟩ := List.mem_map.mp hmem
      have hearlier := hle _ (h.attempts_sub first hfirst)
      rw [List.mem_singleton.mp hother]
      omega
  · intro task hmem
    obtain ⟨earlier, hearlier, hsame⟩ | hnow := Ensemble.of_mem_readers_foldl_absorb hmem
    · exact List.mem_append_left _ (hsame ▸ h.readers_sub earlier hearlier)
    · exact List.mem_append_right _ (hstep ▸ hnow)

/-- An attempt that ends is no longer known of. -/
theorem Covers.withoutAttempt (h : Covers e parties) {number : Nat} {attempt : Attempt}
    (calls : parties.Calls number attempt) :
    (∀ other ∈ (parties.withoutAttempt number).attempts,
      other.generation ∈ e.attempts.erase attempt.generation) ∧
      ((parties.withoutAttempt number).attempts.map (·.generation)).Nodup := by
  have hsub : (parties.withoutAttempt number).attempts.Sublist parties.attempts :=
    List.filter_sublist
  refine ⟨fun other hmem => ?_, h.nodup.sublist (hsub.map _)⟩
  have hother := hsub.subset hmem
  refine (List.mem_erase_of_ne fun hsame => ?_).mpr (h.attempts_sub other hother)
  -- two attempts of one generation are the same
  obtain rfl := List.inj_on_of_nodup_map h.nodup hother calls.mem hsame
  simp [Ensemble.withoutAttempt, calls.number_eq] at hmem

/-- A move of all parties is a step of the exchange, or nothing that concerns it. -/
def Matches (e : Exchange) (input : Option Input) (after : Ensemble) : Prop :=
  (∃ act next, e.Step act next ∧ act.input? = input ∧ Covers next after) ∨
    input = none ∧ Covers e after

/-- An attempt that reports its end posts it, unless the manager is gone. -/
theorem Covers.matches_endAttempt (h : Covers e parties) {number : Nat} {attempt : Attempt}
    (calls : parties.Calls number attempt) (result : Except Failure LinkId) :
    Matches e none ((parties.withoutAttempt number).endAttempt attempt result).1 := by
  obtain ⟨hattempts, hnodup⟩ := h.withoutAttempt calls
  rw [Ensemble.endAttempt, Ensemble.post]
  split
  · refine .inl ⟨_, _, .report attempt.generation result (h.attempts_sub _ calls.mem), rfl, ?_⟩
    exact ⟨h.manager_eq, congrArg (· ++ _) h.inbox_eq, hattempts, hnodup, h.readers_sub⟩
  · refine .inr ⟨rfl, h.manager_eq, h.inbox_eq, fun other hmem => ?_, hnodup, h.readers_sub⟩
    exact List.mem_of_mem_erase (hattempts other hmem)

/-- A reader that passes an event on posts it, unless the manager is gone. -/
theorem Covers.matches_passOn (h : Covers e parties) {task : ReaderTask}
    (hmem : task ∈ parties.readers) (event : LinkEvent) :
    Matches e none (parties.passOn task event).1 := by
  have hreaders : ∀ other ∈ (parties.passOn task event).1.readers,
      other.generation ∈ e.readers := by
    intro other hother
    simp only [Ensemble.passOn, List.mem_filterMap] at hother
    obtain ⟨earlier, hearlier, hkept⟩ := hother
    have hsame : earlier.generation = other.generation := by
      split at hkept
      · split at hkept
        · obtain rfl := Option.some.inj hkept
          rfl
        · simp at hkept
      · rw [Option.some.inj hkept]
    exact hsame ▸ h.readers_sub earlier hearlier
  cases present : parties.present with
  | true =>
    refine .inl ⟨_, _, .pass task.generation event (h.readers_sub task hmem), rfl, ?_⟩
    refine ⟨h.manager_eq, ?_, h.attempts_sub, h.nodup, hreaders⟩
    simp [Ensemble.passOn, LinkReader.pass, present, h.inbox_eq]
  | false =>
    refine .inr ⟨rfl, h.manager_eq, ?_, h.attempts_sub, h.nodup, hreaders⟩
    simp [Ensemble.passOn, LinkReader.pass, present, h.inbox_eq]

theorem Covers.matches (h : Covers e parties) (horder : InOrder acts e) {move : Move}
    {reaction : Ensemble × List Effect} (moved : parties.Moved move reaction) :
    Matches e (parties.inputOf move) reaction.1 := by
  have hle : ∀ generation ∈ e.attempts, generation ≤ e.manager.generation :=
    fun generation hmem => horder.attempts_le generation (List.mem_append_right _ hmem)
  have aside {after : Ensemble} (hafter : Covers e after) : Matches e none after :=
    .inr ⟨rfl, hafter⟩
  have own {input : Input} {before : Ensemble} (unposted : input.isReport = false)
      (hbefore : Covers e before) : Matches e (some input) (before.feed input).1 :=
    .inl ⟨_, _, .own input unposted, rfl, hbefore.feed hle horder.sound input⟩
  have hsame := h
  obtain ⟨hmanager, hinbox, hattempts, hnodup, hreaders⟩ := h
  cases moved with
  | refused => exact aside hsame
  | submitted | detached | elapsed | collapsed =>
    exact aside ⟨hmanager, hinbox, hattempts, hnodup, hreaders⟩
  | messaged panicking message rest present ready first =>
    have hinput : parties.inputOf (.handle panicking) = some (message.toInput panicking) := by
      simp [Ensemble.inputOf, Ensemble.nextInput, first]
    have hinFlight : e.inFlight = [] ++ message :: rest := hinbox.symm.trans first
    have hready : e.manager.activity = .ready := hmanager ▸ ready
    rw [hinput]
    refine .inl ⟨_, _, .arrive [] message rest panicking hready hinFlight, rfl, ?_⟩
    have hrest : Covers { e with inFlight := rest } { parties with inbox := rest } :=
      ⟨hmanager, rfl, hattempts, hnodup, hreaders⟩
    exact hrest.feed hle horder.sound _
  | commanded panicking command rest present ready silent first =>
    have hinput : parties.inputOf (.handle panicking) = some (.command command) := by
      simp [Ensemble.inputOf, Ensemble.nextInput, silent, first]
    rw [hinput]
    exact own rfl ⟨hmanager, hinbox, hattempts, hnodup, hreaders⟩
  | deserted panicking present ready silent unasked unattached =>
    have hinput : parties.inputOf (.handle panicking) = some .commandsEnded := by
      simp [Ensemble.inputOf, Ensemble.nextInput, silent, unasked, unattached]
    rw [hinput]
    exact own rfl hsame
  | wrote => exact own rfl hsame
  | closed result =>
    cases result <;> exact own rfl ⟨hmanager, hinbox, hattempts, hnodup, hreaders⟩
  | expired => exact own rfl ⟨hmanager, hinbox, hattempts, hnodup, hreaders⟩
  | called pinned before attempt after uncalled first hcalled =>
    refine aside ⟨hmanager, hinbox, fun other hmem => ?_, ?_, hreaders⟩
    · rw [hcalled] at hattempts
      simp only [List.mem_append, List.mem_cons] at hmem
      obtain hmem | rfl | hmem := hmem
      · exact hattempts other (by simp [hmem])
      · exact hattempts attempt (by simp)
      · exact hattempts other (by simp [hmem])
    · simpa [hcalled] using hnodup
  | answered number result attempt waits =>
    exact hsame.matches_endAttempt waits.toCalls result
  | completed number result =>
    refine aside ⟨hmanager, hinbox, fun other hmem => ?_, ?_, hreaders⟩
    · obtain ⟨earlier, hearlier, rfl⟩ := List.mem_map.mp hmem
      simpa using hattempts earlier hearlier
    · simpa [Function.comp_def] using hnodup
  | reported number result attempt calls => exact hsame.matches_endAttempt calls result
  | timedOut number attempt waits => exact hsame.matches_endAttempt waits.toCalls _
  | vanished number attempt waits =>
    obtain ⟨hleft, hnodup⟩ := hsame.withoutAttempt waits.toCalls
    exact aside ⟨hmanager, hinbox, fun other hmem => List.mem_of_mem_erase (hleft other hmem),
      hnodup, hreaders⟩
  | fastened link =>
    refine aside ⟨hmanager, hinbox, hattempts, hnodup, fun task hmem => ?_⟩
    obtain ⟨earlier, hearlier, rfl⟩ := List.mem_map.mp hmem
    have hgeneration := hreaders earlier hearlier
    split <;> exact hgeneration
  | passed link event task reads => exact hsame.matches_passOn reads event

theorem Covers.exists_runs_of_run (h : Covers e parties) (past : Runs url acts e)
    {moves : List Move} (hrun : parties.run moves = some (after, effects)) :
    ∃ acts' e', Runs url acts' e' ∧ inputs acts' = inputs acts ++ parties.fed moves ∧
      Covers e' after := by
  induction moves generalizing parties e acts effects with
  | nil =>
    obtain ⟨rfl, -⟩ := Prod.mk.inj (Option.some.inj hrun)
    exact ⟨acts, e, past, by simp [Ensemble.fed], h⟩
  | cons move rest ih =>
    obtain ⟨mid, first, later, hmove, hrest, -⟩ := Ensemble.exists_of_run_cons hrun
    have hmatches := h.matches past.inOrder (Ensemble.moved hmove)
    simp only [Ensemble.fed, hmove]
    obtain ⟨act, next, hstep, hinput, hcovers⟩ | ⟨hinput, hcovers⟩ := hmatches
    · obtain ⟨acts', e', hruns, hinputs, hlast⟩ := ih hcovers (past.concat hstep) hrest
      refine ⟨acts', e', hruns, ?_, hlast⟩
      rw [hinputs, inputs_concat, hinput, List.append_assoc]
    · obtain ⟨acts', e', hruns, hinputs, hlast⟩ := ih hcovers past hrest
      refine ⟨acts', e', hruns, ?_, hlast⟩
      rw [hinputs, hinput, Option.toList_none, List.nil_append]

/-- A run of all parties is a run of the exchange: the manager is fed the same inputs, and the
messages that wait for it are those in flight. -/
theorem exists_runs_of_run (settings : Settings) {moves : List Move}
    (h : (Ensemble.ofSettings settings).run moves = some (parties, effects)) :
    ∃ acts e, Runs settings.endpoint.url acts e ∧
      inputs acts = (Ensemble.ofSettings settings).fed moves ∧
      parties.manager = e.manager ∧ parties.inbox = e.inFlight := by
  have hstart : Covers { manager := { url := settings.endpoint.url } }
      (Ensemble.ofSettings settings) :=
    ⟨rfl, rfl, by simp [Ensemble.ofSettings], by simp [Ensemble.ofSettings],
      by simp [Ensemble.ofSettings]⟩
  obtain ⟨acts, e, hruns, hinputs, hcovers⟩ := hstart.exists_runs_of_run .start h
  exact ⟨acts, e, hruns, hinputs, hcovers.manager_eq, hcovers.inbox_eq⟩

end Exchange

end PersistentLink
