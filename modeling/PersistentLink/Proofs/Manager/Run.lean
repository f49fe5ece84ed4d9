import Mathlib.Data.List.Basic
import Mathlib.Data.List.Induction
import PersistentLink.Manager.Step

/-!
# Runs of a manager

What a run of a manager does is what its steps do, one after another. A property of whole runs is
therefore proved from what one step keeps. This file splits runs into shorter runs, and singles out
of a run what the properties speak about: the commands that were handled, the events that were
published, the answers that were given and the attempts that were started.

## Main definitions

- `Manager.heard`, `Manager.handled`: the commands that are handled by a step and by a run
- `Effect.seen`: what a view shows of what is done
- `Effect.events`, `Effect.answers`, `Effect.attempts`, `Effect.readers`, `Effect.records`,
  `Effect.phases`, `Effect.reports`, `Effect.writes`: such views

## Design notes

A command that comes while something is under way is not handled, so the commands handled by a run
are read off its states together with its inputs.
-/

namespace PersistentLink

/-! ## Views of what is done -/

/-- If a view shows nothing twice, no two items look the same. -/
theorem eq_of_nodup_filterMap {α β : Type} {view : α → Option β} {items : List α}
    (h : (items.filterMap view).Nodup) {first second : α} {value : β} (hfirst : first ∈ items)
    (hsecond : second ∈ items) (hviewed : view first = some value)
    (hother : view second = some value) : first = second := by
  induction items with
  | nil => simp at hfirst
  | cons head rest ih =>
    obtain hone | hfirst := List.mem_cons.mp hfirst <;>
      obtain htwo | hsecond := List.mem_cons.mp hsecond
    · exact hone.trans htwo.symm
    · rw [← hone, List.filterMap_cons_some hviewed, List.nodup_cons] at h
      exact absurd (List.mem_filterMap.mpr ⟨second, hsecond, hother⟩) h.1
    · rw [← htwo, List.filterMap_cons_some hother, List.nodup_cons] at h
      exact absurd (List.mem_filterMap.mpr ⟨first, hfirst, hviewed⟩) h.1
    · exact ih (h.sublist ((List.sublist_cons_self head rest).filterMap view)) hfirst hsecond

namespace Effect

/-- The event that is published. -/
abbrev event? : Effect → Option LifecycleEvent
  | .emit event => some event
  | _ => none

/-- The answer that is given. -/
abbrev answer? : Effect → Option (CallId × Except Failure Unit)
  | .answer call result => some (call, result)
  | _ => none

/-- The generation of the attempt that is started. -/
abbrev attempt? : Effect → Option Nat
  | .startAttempt generation => some generation
  | _ => none

/-- The generation of the link whose reader is started. -/
abbrev reader? : Effect → Option Nat
  | .startReader _ generation => some generation
  | _ => none

/-- The record that is logged. -/
abbrev record? : Effect → Option LogRecord
  | log record => some record
  | _ => none

/-- The phase that is published. -/
abbrev phase? : Effect → Option Phase
  | publish phase => some phase
  | _ => none

/-- The books that are reported, and the request for them. -/
abbrev report? : Effect → Option (QueryId × Snapshot)
  | report query snapshot => some (query, snapshot)
  | _ => none

/-- The payload that is handed to a writer, and its link. -/
abbrev write? : Effect → Option (LinkId × Payload)
  | write link payload => some (link, payload)
  | _ => none

/-- What a view shows of effects, in order. -/
def seen {β : Type} (view : Effect → Option β) (effects : List Effect) : List β :=
  effects.filterMap view

/-- The published events, in order. -/
abbrev events (effects : List Effect) : List LifecycleEvent :=
  seen event? effects

/-- The given answers, in order. -/
abbrev answers (effects : List Effect) : List (CallId × Except Failure Unit) :=
  seen answer? effects

/-- The generations of the attempts started, in order. -/
abbrev attempts (effects : List Effect) : List Nat :=
  seen attempt? effects

/-- The generations of the links whose readers are started, in order. -/
abbrev readers (effects : List Effect) : List Nat :=
  seen reader? effects

/-- The logged records, in order. -/
abbrev records (effects : List Effect) : List LogRecord :=
  seen record? effects

/-- The published phases, in order. -/
abbrev phases (effects : List Effect) : List Phase :=
  seen phase? effects

/-- The reports, in order. -/
abbrev reports (effects : List Effect) : List (QueryId × Snapshot) :=
  seen report? effects

/-- The payloads that are handed to writers, in order. -/
abbrev writes (effects : List Effect) : List (LinkId × Payload) :=
  seen write? effects

theorem event?_eq_some {effect : Effect} {event : LifecycleEvent} :
    effect.event? = some event ↔ effect = .emit event := by
  cases effect <;> simp [event?]

theorem answer?_eq_some {effect : Effect} {given : CallId × Except Failure Unit} :
    effect.answer? = some given ↔ effect = .answer given.1 given.2 := by
  cases effect <;> simp [answer?, Prod.ext_iff]

theorem attempt?_eq_some {effect : Effect} {generation : Nat} :
    effect.attempt? = some generation ↔ effect = .startAttempt generation := by
  cases effect <;> simp [attempt?]

variable {effects first second : List Effect}

section Views

variable {β : Type} {view : Effect → Option β}

theorem mem_seen {item : β} :
    item ∈ seen view effects ↔ ∃ effect ∈ effects, view effect = some item :=
  List.mem_filterMap

@[simp]
theorem seen_nil : seen view [] = [] := rfl

@[simp]
theorem seen_cons (effect : Effect) :
    seen view (effect :: effects) = (view effect).toList ++ seen view effects := by
  rw [seen, List.filterMap_cons]
  cases view effect <;> rfl

@[simp]
theorem seen_append : seen view (first ++ second) = seen view first ++ seen view second :=
  List.filterMap_append

end Views

theorem mem_events {event : LifecycleEvent} :
    event ∈ events effects ↔ .emit event ∈ effects := by
  simp [mem_seen, event?_eq_some]

theorem mem_answers {call : CallId} {result : Except Failure Unit} :
    (call, result) ∈ answers effects ↔ .answer call result ∈ effects := by
  simp [mem_seen, answer?_eq_some]

theorem mem_attempts {generation : Nat} :
    generation ∈ attempts effects ↔ .startAttempt generation ∈ effects := by
  simp [mem_seen, attempt?_eq_some]

end Effect

namespace Manager

open Effect

/-! ## Views of the parts of a reaction -/

/-- The callers who wait, in order of arrival. -/
def waiting (m : Manager) : List CallId :=
  m.waiters.map (·.call)

section Parts

variable {β : Type} {view : Effect → Option β} (m : Manager)

/-- A change of phase is logged and published, and nothing else is done. -/
@[simp]
theorem seen_transition (hlog : ∀ source target, view (.log (.transition source target)) = none)
    (hpublish : ∀ phase, view (.publish phase) = none) (source target : Phase) :
    seen view (transition source target) = [] := by
  rw [transition]
  split
  · rfl
  · simp [hlog, hpublish]

@[simp]
theorem seen_answerAll (waiters : List Waiter) (result : Except Failure Unit) :
    seen view (answerAll waiters result) =
      waiters.filterMap fun waiter => view (.answer waiter.call result) := by
  rw [seen, answerAll, List.filterMap_map]
  rfl

/-- A dispatch shows a message and logs, and does nothing else. -/
theorem mem_dispatch {payload : Payload} {panicking : List ObserverId} {effect : Effect}
    (h : effect ∈ m.dispatch payload panicking) :
    (∃ observer, effect = .observe observer payload) ∨ ∃ record, effect = .log record ∧
      (record = .dispatching payload.size m.observers.length ∨
        ∃ index, record = .observerPanicked index) := by
  rw [dispatch, List.mem_cons, List.mem_flatMap] at h
  obtain rfl | ⟨⟨observer, index⟩, -, hmem⟩ := h
  · exact .inr ⟨_, rfl, .inl rfl⟩
  · rw [List.mem_cons] at hmem
    obtain rfl | hpanic := hmem
    · exact .inl ⟨observer, rfl⟩
    · split at hpanic
      · exact .inr ⟨_, List.mem_singleton.mp hpanic, .inr ⟨index, rfl⟩⟩
      · exact absurd hpanic List.not_mem_nil

@[simp]
theorem seen_dispatch (hobserve : ∀ observer payload, view (.observe observer payload) = none)
    (hlog : ∀ size observers, view (.log (.dispatching size observers)) = none)
    (hpanic : ∀ index, view (.log (.observerPanicked index)) = none) (payload : Payload)
    (panicking : List ObserverId) : seen view (m.dispatch payload panicking) = [] := by
  rw [seen, List.filterMap_eq_nil_iff]
  intro effect hmem
  obtain ⟨observer, rfl⟩ | ⟨record, rfl, rfl | ⟨index, rfl⟩⟩ := m.mem_dispatch hmem
  · exact hobserve observer payload
  · exact hlog _ _
  · exact hpanic index

@[simp]
theorem seen_beginAttempt (trigger : Trigger) :
    seen view (m.beginAttempt trigger).2 =
      seen view (transition m.phase .connecting) ++
        seen view [.log (.opening (m.generation + 1) m.url trigger),
          .emit (.connecting (m.generation + 1) trigger), .startAttempt (m.generation + 1)] :=
  seen_append

/-- The event that is published once a writer has been closed, depending on what was left to do. -/
theorem events_resume (rest : Resume) :
    events (m.resume rest).2 =
      match rest with
      | .linkLost error _ => [.closed m.generation (.abnormal error.message)]
      | .linkClosed status => [.closed m.generation status]
      | .reset _ | .shutdown => [.reset m.queue.length]
      | .attempt trigger => [.connecting (m.generation + 1) trigger]
      | .nothing => [] := by
  cases rest with
  | linkLost error draining => cases draining <;> simp [resume, settleLost, event?]
  | _ => simp [resume, settleClosed, settleReset, event?]

/-- The answers that are given once a writer has been closed. -/
theorem answers_resume (rest : Resume) :
    answers (m.resume rest).2 =
      match rest with
      | .linkLost _ true => m.waiters.map fun waiter => (waiter.call, .error .connectionClosed)
      | .reset call =>
        (m.waiters.map fun waiter => (waiter.call, .error .aborted)) ++ [(call, .ok ())]
      | .shutdown => m.waiters.map fun waiter => (waiter.call, .error .aborted)
      | .linkLost _ false | .linkClosed _ | .attempt _ | .nothing => [] := by
  cases rest with
  | linkLost error draining => cases draining <;> simp [resume, settleLost, answer?]
  | _ => simp [resume, settleClosed, settleReset, answer?]

/-- An attempt starts once a writer has been closed only if one was left to start. -/
theorem attempts_resume (rest : Resume) :
    attempts (m.resume rest).2 =
      match rest with
      | .attempt _ => [m.generation + 1]
      | _ => [] := by
  cases rest with
  | linkLost error draining => cases draining <;> simp [resume, settleLost, attempt?]
  | _ => simp [resume, settleClosed, settleReset, attempt?]

/-- No reader starts once a writer has been closed. -/
@[simp]
theorem readers_resume (rest : Resume) : readers (m.resume rest).2 = [] := by
  cases rest with
  | linkLost error draining => cases draining <;> simp [resume, settleLost, reader?]
  | _ => simp [resume, settleClosed, settleReset, reader?]

end Parts

/-! ## Runs -/

variable (m : Manager)

@[simp]
theorem run_nil : m.run [] = (m, []) := rfl

theorem run_concat (inputs : List Input) (input : Input) :
    m.run (inputs ++ [input]) = (m.run inputs).andThen (step · input) := by
  simp [run, List.foldl_append]

/-- A run from a reaction does what the reaction has done, and then what the run does. -/
theorem foldl_step (reaction : Reaction) (inputs : List Input) :
    inputs.foldl (fun reaction input => reaction.andThen (step · input)) reaction =
      (reaction.1.run inputs).after reaction.2 := by
  induction inputs using List.reverseRecOn with
  | nil => simp [Reaction.after]
  | append_singleton inputs input ih =>
    rw [List.foldl_append, List.foldl_cons, List.foldl_nil, ih, run_concat]
    simp [Reaction.andThen, Reaction.after]

theorem run_cons (input : Input) (rest : List Input) :
    m.run (input :: rest) = ((m.step input).1.run rest).after (m.step input).2 := by
  rw [run, List.foldl_cons, foldl_step]
  simp [Reaction.andThen, Reaction.after]

theorem run_append (past later : List Input) :
    m.run (past ++ later) = ((m.run past).1.run later).after (m.run past).2 := by
  rw [run, List.foldl_append, foldl_step]
  rfl

@[simp]
theorem run_singleton (input : Input) : m.run [input] = m.step input := by
  rw [run_cons]
  simp [Reaction.after]

@[simp]
theorem run_concat_fst (inputs : List Input) (input : Input) :
    (m.run (inputs ++ [input])).1 = ((m.run inputs).1.step input).1 := by
  rw [run_concat]
  rfl

@[simp]
theorem run_concat_snd (inputs : List Input) (input : Input) :
    (m.run (inputs ++ [input])).2 = (m.run inputs).2 ++ ((m.run inputs).1.step input).2 := by
  rw [run_concat]
  rfl

theorem mem_run_of_mem_part {past part later : List Input} {effect : Effect}
    (h : effect ∈ ((m.run past).1.run part).2) :
    effect ∈ (m.run (past ++ (part ++ later))).2 := by
  rw [run_append, run_append]
  exact List.mem_append_right _ (List.mem_append_left _ h)

/-! ## The commands of a run -/

/-- The command that a step handles. Only a manager with nothing under way handles one. -/
def heard (input : Input) : Option Command :=
  match m.activity, input with
  | .ready, .command command => some command
  | _, _ => none

/-- The commands that a run handles, in order. -/
def handled (m : Manager) : List Input → List Command
  | [] => []
  | input :: rest => (m.heard input).toList ++ (m.step input).1.handled rest

theorem heard_eq_some {input : Input} {command : Command} :
    m.heard input = some command ↔ m.activity = .ready ∧ input = .command command := by
  unfold heard
  split
  · rename_i given hready
    simp [hready]
  · rename_i hnot
    simp only [reduceCtorEq, false_iff, not_and]
    rintro hready rfl
    exact hnot command hready rfl

theorem handled_append (past later : List Input) :
    m.handled (past ++ later) = m.handled past ++ (m.run past).1.handled later := by
  induction past generalizing m with
  | nil => rfl
  | cons input rest ih =>
    rw [List.cons_append, handled, ih, handled, run_cons, List.append_assoc]
    rfl

@[simp]
theorem handled_nil : m.handled [] = [] := rfl

@[simp]
theorem handled_concat (inputs : List Input) (input : Input) :
    m.handled (inputs ++ [input]) =
      m.handled inputs ++ ((m.run inputs).1.heard input).toList := by
  simp [handled_append, handled]

theorem mem_handled_of_ready {past later : List Input} {command : Command}
    (ready : (m.run past).1.activity = .ready) :
    command ∈ m.handled (past ++ .command command :: later) := by
  have hheard : (m.run past).1.heard (.command command) = some command :=
    (m.run past).1.heard_eq_some.mpr ⟨ready, rfl⟩
  rw [handled_append, handled, hheard]
  simp

end Manager

end PersistentLink
