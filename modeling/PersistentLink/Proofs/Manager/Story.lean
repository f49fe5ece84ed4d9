import PersistentLink.Proofs.Manager.Handling

/-!
# The story that events tell

A subscriber sees nothing but the published events. They keep to a grammar: an attempt is announced,
then it is decided once, and a link that was lost or an attempt that failed is not spoken of again.
So a subscriber can tell from the events where the connection stands, and in which generation.

## Main definitions

- `Story`: what a subscriber has been told
- `Story.Continues`: which event may come next
- `Tells`: the events that tell a story
- `InPlace`: how an event goes with the events before it
- `Manager.story`: the story that a manager should have told

## Main results

- `Story.Continues.inPlace`: an event that continues a story is in its place
- `Manager.Turn.tells`, `Manager.tells_run`: a manager tells its story
- `Manager.events_tell_books`: the events of a run, and what can be told from them

## Design notes

A link is announced once the queue has been written to it. Until then the connection is live in the
books, and still connecting in the story.
-/

namespace PersistentLink

namespace LifecycleEvent

/-- The generation that an event is about. A reset is about none. -/
def generation? : LifecycleEvent → Option Nat
  | connecting generation _ | opened generation _ | connectFailed generation _ _
  | closed generation _ => some generation
  | reset _ => none

/-- Whether an attempt has started. -/
def isConnecting : LifecycleEvent → Bool
  | connecting .. => true
  | _ => false

/-- Whether all was released. -/
def isReset : LifecycleEvent → Bool
  | reset _ => true
  | _ => false

/-- Whether the attempt of a generation is decided: its link is announced, or it has failed. -/
def decides (generation : Nat) : LifecycleEvent → Bool
  | opened other _ | connectFailed other _ _ => other == generation
  | _ => false

/-- Whether the link of a generation was closed or lost. -/
def closes (generation : Nat) : LifecycleEvent → Bool
  | closed other _ => other == generation
  | _ => false

/-- Whether an event is the last one about a generation. -/
def ends (generation : Nat) : LifecycleEvent → Bool
  | connectFailed other _ _ | closed other _ => other == generation
  | _ => false

variable {event : LifecycleEvent} {generation : Nat}

theorem generation?_of_decides (h : event.decides generation = true) :
    event.generation? = some generation := by
  cases event <;> simp_all [decides, generation?]

theorem generation?_of_closes (h : event.closes generation = true) :
    event.generation? = some generation := by
  cases event <;> simp_all [closes, generation?]

theorem generation?_of_ends (h : event.ends generation = true) :
    event.generation? = some generation := by
  cases event <;> simp_all [ends, generation?]

end LifecycleEvent

open LifecycleEvent

/-! ## The grammar -/

/-- What a subscriber has been told. -/
structure Story where
  /-- where the connection stands, as far as it was announced -/
  phase : Phase := .idle
  /-- number of attempts and resets that were announced -/
  generation : Nat := 0
  /-- what started the last attempt that was announced -/
  trigger : Trigger := .caller
  deriving DecidableEq, Repr

/-- The events that may come next, and what has been told with them. -/
inductive Story.Continues (story : Story) : LifecycleEvent → Story → Prop
  | connecting (trigger : Trigger) (free : story.phase.mayStartAttempt = true) :
    Continues story (.connecting (story.generation + 1) trigger)
      ⟨.connecting, story.generation + 1, trigger⟩
  | opened (flushed : Nat) (pending : story.phase = .connecting) :
    Continues story (.opened story.generation flushed) { story with phase := .live }
  | connectFailed (reason : String) (pending : story.phase = .connecting) :
    Continues story (.connectFailed story.generation story.trigger reason)
      { story with phase := .down }
  -- a link may be lost before it is announced
  | closed (status : CloseStatus) (linked : story.phase = .connecting ∨ story.phase = .live) :
    Continues story (.closed story.generation status) { story with phase := .down }
  | reset (discarded : Nat) :
    Continues story (.reset discarded)
      { story with phase := .idle, generation := story.generation + 1 }

/-- The events that tell a story, in order. -/
inductive Tells : List LifecycleEvent → Story → Prop
  | nil : Tells [] {}
  | concat {past : List LifecycleEvent} {story next : Story} {event : LifecycleEvent}
      (told : Tells past story) (continues : story.Continues event next) :
    Tells (past ++ [event]) next

/-- How an event goes with the events before it. -/
structure InPlace (before : List LifecycleEvent) (event : LifecycleEvent) : Prop where
  /-- attempts are numbered, together with resets -/
  numbered : ∀ generation trigger, event = .connecting generation trigger →
    generation = 1 + before.countP isConnecting + before.countP isReset
  /-- what becomes of an attempt is told after its start, before any other attempt or reset, and a
  failure names the trigger that was named at the start -/
  follows : ∀ generation, event.generation? = some generation → event.isConnecting = false →
    ∃ earlier trigger between, before = earlier ++ .connecting generation trigger :: between ∧
      (∀ other ∈ between, other.isConnecting = false ∧ other.isReset = false) ∧
      ∀ named reason, event = .connectFailed generation named reason → named = trigger
  /-- an attempt is decided once -/
  undecided : ∀ generation, event.decides generation = true →
    ∀ other ∈ before, other.decides generation = false
  /-- a link is closed once -/
  unclosed : ∀ generation, event.closes generation = true →
    ∀ other ∈ before, other.closes generation = false
  /-- nothing is told of a generation after its end -/
  unended : ∀ generation, event.generation? = some generation →
    ∀ other ∈ before, other.ends generation = false

section Grammar

variable {events before : List LifecycleEvent} {story next : Story} {event : LifecycleEvent}

/-! ## What a story says of the events that tell it -/

theorem Story.Continues.phase_eq (h : story.Continues event next) : next.phase = event.phase := by
  cases h <;> rfl

/-- Where the connection stands is told by the last event alone. -/
theorem Tells.phase_eq (h : Tells events story) :
    story.phase = events.getLast?.elim .idle LifecycleEvent.phase := by
  cases h with
  | nil => rfl
  | concat told continues => simp [continues.phase_eq]

theorem Tells.generation_eq (h : Tells events story) :
    story.generation = events.countP isConnecting + events.countP isReset := by
  induction h with
  | nil => rfl
  | concat told continues ih =>
    rw [List.countP_append, List.countP_append]
    cases continues with
    | connecting | reset =>
      simp only [List.countP_singleton, isConnecting, isReset, if_true, if_false,
        Bool.false_eq_true]
      omega
    | opened | connectFailed | closed => simpa [isConnecting, isReset] using ih

theorem Tells.generation_le (h : Tells events story) {generation : Nat} (hmem : event ∈ events)
    (habout : event.generation? = some generation) : generation ≤ story.generation := by
  induction h with
  | nil => exact absurd hmem List.not_mem_nil
  | concat told continues ih =>
    rw [List.mem_append, List.mem_singleton] at hmem
    obtain hpast | rfl := hmem
    · have hle := ih hpast
      cases continues with
      | connecting | reset => exact Nat.le_succ_of_le hle
      | opened | connectFailed | closed => exact hle
    · cases continues with
      | reset => simp [generation?] at habout
      | _ =>
        simp only [generation?, Option.some.injEq] at habout
        exact Nat.le_of_eq habout.symm

/-- As long as an attempt is not decided, nothing has been told about it but its start. -/
theorem Tells.eq_of_connecting (h : Tells events story) (pending : story.phase = .connecting) :
    ∃ earlier, events = earlier ++ [.connecting story.generation story.trigger] ∧
      ∀ other ∈ earlier, other.generation? ≠ some story.generation := by
  cases h with
  | nil => simp at pending
  | concat told continues =>
    cases continues with
    | connecting trigger =>
      refine ⟨_, rfl, fun other hmem habout => ?_⟩
      exact absurd (told.generation_le hmem habout) (Nat.not_succ_le_self _)
    | _ => simp at pending

/-- Of a link that stands, nothing has been told but the start of its attempt and that it opened. -/
theorem Tells.eq_of_live (h : Tells events story) (live : story.phase = .live) :
    ∃ earlier flushed, events = earlier ++
        [.connecting story.generation story.trigger, .opened story.generation flushed] ∧
      ∀ other ∈ earlier, other.generation? ≠ some story.generation := by
  cases h with
  | nil => simp at live
  | concat told continues =>
    cases continues with
    | opened flushed pending =>
      obtain ⟨earlier, rfl, hearlier⟩ := told.eq_of_connecting pending
      exact ⟨earlier, flushed, by simp, hearlier⟩
    | _ => simp at live

/-- What is said of a generation is said by the last events only. -/
theorem eq_false_of_tail {earlier tail : List LifecycleEvent} {generation : Nat}
    {about : LifecycleEvent → Bool}
    (habout : ∀ other, about other = true → other.generation? = some generation)
    (hearlier : ∀ other ∈ earlier, other.generation? ≠ some generation)
    (htail : ∀ other ∈ tail, about other = false) :
    ∀ other ∈ earlier ++ tail, about other = false := by
  intro other hmem
  rw [List.mem_append] at hmem
  obtain hmem | hmem := hmem
  · exact Bool.eq_false_iff.mpr fun h => hearlier other hmem (habout other h)
  · exact htail other hmem

/-- An event about an attempt is in its place if nothing has been told of the attempt but its start,
and perhaps that its link opened. -/
theorem inPlace_of_tail {earlier between : List LifecycleEvent} {generation : Nat}
    {trigger : Trigger} (hearlier : ∀ other ∈ earlier, other.generation? ≠ some generation)
    (habout : event.generation? = some generation) (hlater : event.isConnecting = false)
    (htrigger : ∀ named reason, event = .connectFailed generation named reason → named = trigger)
    (hbetween : ∀ other ∈ between, ∃ flushed, other = .opened generation flushed)
    (hundecided : event.decides generation = true → between = []) :
    InPlace (earlier ++ .connecting generation trigger :: between) event := by
  have hsame {other : Nat} (hother : event.generation? = some other) : other = generation :=
    Option.some.inj (hother.symm.trans habout)
  constructor
  · rintro _ _ rfl
    simp [isConnecting] at hlater
  · intro other hother _
    obtain rfl := hsame hother
    refine ⟨earlier, trigger, between, rfl, fun last hmem => ?_, htrigger⟩
    obtain ⟨flushed, rfl⟩ := hbetween last hmem
    exact ⟨rfl, rfl⟩
  · intro other hdecides
    obtain rfl := hsame (generation?_of_decides hdecides)
    rw [hundecided hdecides]
    exact eq_false_of_tail (fun _ => generation?_of_decides) hearlier (by simp [decides])
  · intro other hcloses
    obtain rfl := hsame (generation?_of_closes hcloses)
    refine eq_false_of_tail (fun _ => generation?_of_closes) hearlier fun last hmem => ?_
    obtain rfl | hmem := List.mem_cons.mp hmem
    · rfl
    · obtain ⟨flushed, rfl⟩ := hbetween last hmem
      rfl
  · intro other hother
    obtain rfl := hsame hother
    refine eq_false_of_tail (fun _ => generation?_of_ends) hearlier fun last hmem => ?_
    obtain rfl | hmem := List.mem_cons.mp hmem
    · rfl
    · obtain ⟨flushed, rfl⟩ := hbetween last hmem
      rfl

/-- An event that continues a story is in its place. -/
theorem Story.Continues.inPlace (h : story.Continues event next) (told : Tells before story) :
    InPlace before event := by
  cases h with
  | connecting trigger =>
    constructor
    · rintro generation - ⟨⟩
      rw [told.generation_eq]
      omega
    · simp [isConnecting]
    · simp [decides]
    · simp [closes]
    · intro generation habout other hmem
      obtain rfl : story.generation + 1 = generation := Option.some.inj habout
      -- generations that were told of are earlier ones
      refine Bool.eq_false_iff.mpr fun hends => ?_
      have hle := told.generation_le hmem (generation?_of_ends hends)
      exact absurd hle (Nat.not_succ_le_self _)
  | opened flushed pending =>
    obtain ⟨earlier, rfl, hearlier⟩ := told.eq_of_connecting pending
    exact inPlace_of_tail hearlier rfl rfl (by simp) (by simp) fun _ => rfl
  | connectFailed reason pending =>
    obtain ⟨earlier, rfl, hearlier⟩ := told.eq_of_connecting pending
    exact inPlace_of_tail hearlier rfl rfl (by simp) (by simp) fun _ => rfl
  | closed status linked =>
    obtain pending | live := linked
    · obtain ⟨earlier, rfl, hearlier⟩ := told.eq_of_connecting pending
      exact inPlace_of_tail hearlier rfl rfl (by simp) (by simp) (by simp [decides])
    · obtain ⟨earlier, flushed, rfl, hearlier⟩ := told.eq_of_live live
      exact inPlace_of_tail hearlier rfl rfl (by simp) (by simp) (by simp [decides])
  | reset => constructor <;> simp [generation?, decides, closes]

/-- Every event of a story is in its place. -/
theorem Tells.inPlace (h : Tells events story) {after : List LifecycleEvent}
    (hevents : events = before ++ event :: after) : InPlace before event := by
  induction h generalizing after with
  | nil => simp at hevents
  | @concat past story next last told continues ih =>
    obtain rfl | ⟨rest, final, rfl⟩ := List.eq_nil_or_concat after
    · obtain ⟨rfl, hlast⟩ := List.append_inj' hevents rfl
      obtain rfl : last = event := by simpa using hlast
      exact continues.inPlace told
    · rw [List.concat_eq_append, ← List.cons_append, ← List.append_assoc] at hevents
      exact ih (List.append_inj' hevents rfl).1

/-- What is never said twice is said once at most. -/
theorem countP_le_one {about : LifecycleEvent → Bool}
    (h : ∀ before event after, events = before ++ event :: after → about event = true →
      ∀ other ∈ before, about other = false) : events.countP about ≤ 1 := by
  induction events using List.reverseRecOn with
  | nil => simp
  | append_singleton past last ih =>
    rw [List.countP_append, List.countP_singleton]
    by_cases hlast : about last = true
    · have hnone : past.countP about = 0 := by
        rw [List.countP_eq_zero]
        intro other hmem
        exact Bool.eq_false_iff.mp (h past last [] rfl hlast other hmem)
      simp [hnone, hlast]
    · have hpast := ih fun before event after hpast => h before event (after ++ [last]) (by
        rw [hpast, List.append_assoc, List.cons_append])
      simpa [hlast] using hpast

end Grammar

/-! ## The story of a manager -/

namespace Manager

open Effect

/-- The phase that has been announced. A link that the queue is written to has not been announced
yet, and is not if a write fails. -/
def announcedPhase (m : Manager) : Phase :=
  match m.activity with
  | .draining .. | .closing _ (.linkLost _ true) => .connecting
  | _ => m.phase

/-- The story that a manager should have told. -/
def story (m : Manager) : Story :=
  ⟨m.announcedPhase, m.generation, m.trigger⟩

variable {m : Manager} {input : Input} {reaction : Reaction} {past : List LifecycleEvent}

theorem announcedPhase_of_not_busy (finished : ¬m.Busy) : m.announcedPhase = m.phase := by
  unfold announcedPhase
  split
  · rename_i busy
    exact absurd (by simp [Busy, busy]) finished
  · rename_i busy
    exact absurd (by simp [Busy, busy]) finished
  · rfl

theorem story_of_ready (ready : m.activity = .ready) :
    m.story = ⟨m.phase, m.generation, m.trigger⟩ := by
  rw [story, announcedPhase_of_not_busy fun busy => busy.1 ready]

/-- A step that publishes no event leaves the story as it is. -/
theorem tells_of_silent (h : Tells past m.story) (hevents : events reaction.2 = [])
    (hstory : reaction.1.story = m.story) :
    Tells (past ++ events reaction.2) reaction.1.story := by
  rw [hevents, hstory, List.append_nil]
  exact h

@[simp]
theorem story_beginAttempt (m : Manager) (trigger : Trigger) :
    (m.beginAttempt trigger).1.story = ⟨.connecting, m.generation + 1, trigger⟩ := rfl

@[simp]
theorem story_reset (m : Manager) (call : CallId) :
    (m.resume (.reset call)).1.story = ⟨.idle, m.generation + 1, m.trigger⟩ := rfl

@[simp]
theorem story_shutdown (m : Manager) :
    (m.resume .shutdown).1.story = ⟨.idle, m.generation + 1, m.trigger⟩ := rfl

/-- What is done once a writer has been closed is announced. -/
theorem Severed.tells_resume {generation : Nat} {rest : Resume} (h : m.Severed rest)
    (busy : m.activity = .closing generation rest) (htold : Tells past m.story) :
    Tells (past ++ events (m.resume rest).2) (m.resume rest).1.story := by
  have live := h.phase_eq
  rw [events_resume]
  cases rest with
  | linkLost error draining =>
    refine htold.concat (.closed _ ?_)
    cases draining with
    | true => exact .inl (by simp [story, announcedPhase, busy])
    | false => exact .inr (by simp [story, announcedPhase, busy, live])
  | linkClosed status =>
    refine htold.concat (.closed _ (.inr ?_))
    simp [story, announcedPhase, busy, live]
  | reset | shutdown => exact htold.concat (.reset _)
  | attempt trigger => exact h.leftFor.elim
  | nothing => exact h.leftFor.elim

/-- A step publishes what continues the story. -/
theorem Turn.tells (turn : Turn m input reaction) (hsound : m.Sound) (h : Tells past m.story) :
    Tells (past ++ events reaction.2) reaction.1.story := by
  cases turn with
  | welcomed | reported | staleFailure | alreadyDown | staleEvent | ignored | joined | queued
      | registered =>
    exact tells_of_silent h (by simp [event?]) rfl
  | received => exact tells_of_silent h (by simp) rfl
  | handedOver _ _ ready | staleSuccess _ _ ready | peerClosed _ _ _ ready =>
    exact tells_of_silent h (by simp [event?]) (by simp [story, announcedPhase, ready])
  | dismissing order _ ready =>
    refine tells_of_silent h (by simp [event?]) ?_
    cases order <;> simp [story, announcedPhase, ready]
  | wrote _ busy | writeLost _ _ _ busy | drainedOne _ _ _ _ _ busy | drainLost _ _ _ _ busy =>
    exact tells_of_silent h (by simp [event?]) (by simp [story, announcedPhase, busy])
  | openedDraining _ _ _ ready pending =>
    -- the connection is live in the books, but the link is not announced yet
    exact tells_of_silent h (by simp [event?]) (by simp [story, announcedPhase, ready, pending])
  | called _ ready free | summoned _ ready free =>
    rw [story_of_ready ready] at h
    simpa [event?] using h.concat (.connecting _ free)
  | dismissed order =>
    have hnext : Tells (past ++ [.reset m.queue.length]) ⟨.idle, m.generation + 1, m.trigger⟩ :=
      h.concat (.reset _)
    cases order <;> simpa [event?, events_resume, apply_ite] using hnext
  | opened _ ready pending =>
    rw [story_of_ready ready] at h
    have hnext := h.concat (.opened 0 pending)
    simpa [event?, story, announcedPhase, ready] using hnext
  | drained _ flushed busy =>
    have live := (hsound.linked busy).phase_eq
    have hnext := h.concat (.opened (flushed + 1) (by simp [story, announcedPhase, busy]))
    simpa [event?, story, announcedPhase, live] using hnext
  | failed error ready pending =>
    rw [story_of_ready ready] at h
    have hnext := h.concat (.connectFailed error.message pending)
    simpa [story, announcedPhase, ready] using hnext
  | failedRetrying error ready pending =>
    rw [story_of_ready ready] at h
    have hfailed := h.concat (.connectFailed error.message pending)
    -- the failure is announced before the attempt that is made instead
    have hnext := hfailed.concat (.connecting .retry rfl)
    simpa [event?, story, announcedPhase, beginAttempt] using hnext
  | released generation rest outcome busy =>
    simp only [Reaction.after_fst, Reaction.after_snd, seen_append, seen_cons, seen_nil,
      event?, Option.toList_none, List.append_nil, List.nil_append]
    cases rest with
    | nothing => exact tells_of_silent h rfl (by simp [story, announcedPhase, resume, busy])
    | _ =>
      simp only [Sound, busy] at hsound
      exact hsound.2.tells_resume busy h

/-- A manager tells its story. -/
theorem tells_run (url : String) (inputs : List Input) :
    Tells (events (run { url } inputs).2) (run { url } inputs).1.story := by
  induction inputs using List.reverseRecOn with
  | nil => exact .nil
  | append_singleton inputs input ih =>
    have hsound := sound_run url inputs
    rw [run_concat_fst, run_concat_snd, events, seen_append]
    exact (hsound.turn input).tells hsound ih

/-- **What the events of a run tell.** Every event is in its place: attempts are numbered, together
with resets; what becomes of an attempt is told between its start and the next attempt or reset; it
is told once that a link opened or that the attempt failed, and once that the link closed; and
nothing is told of a generation after its end. Between two inputs the last event tells where the
connection stands, and the number of attempts and resets that were told is the generation. -/
theorem events_tell_books (url : String) (inputs : List Input) :
    let m := (run { url } inputs).1
    let told := events (run { url } inputs).2
    (∀ before event after, told = before ++ event :: after → InPlace before event) ∧
      (∀ generation, told.countP (decides generation) ≤ 1 ∧
        told.countP (closes generation) ≤ 1) ∧
      (¬m.Busy → m.phase = told.getLast?.elim .idle LifecycleEvent.phase) ∧
      m.generation = told.countP isConnecting + told.countP isReset := by
  intro m told
  have hstory : Tells told m.story := tells_run url inputs
  refine ⟨fun before event after hevents => hstory.inPlace hevents, fun generation => ⟨?_, ?_⟩,
    fun finished => ?_, hstory.generation_eq⟩
  · exact countP_le_one fun before event after hevents =>
      (hstory.inPlace hevents).undecided generation
  · exact countP_le_one fun before event after hevents =>
      (hstory.inPlace hevents).unclosed generation
  · rw [← announcedPhase_of_not_busy finished]
    exact hstory.phase_eq

/-- A link is lost while the queue is written to it, so it was never announced. The caller had come
for the attempt before, which had failed. -/
theorem events_tell_books_lost :
    let inputs : List Input := [.command (.connect 0), .command (.connect 1),
      .attemptFinished 1 (.error .connectTimeout), .command (.send (.binary [1])),
      .attemptFinished 2 (.ok 7), .written (.error .connectTimeout), .closed .done]
    let m := (run { url := "ws://localhost:80/" } inputs).1
    let told := events (run { url := "ws://localhost:80/" } inputs).2
    ¬m.Busy ∧ m.phase = told.getLast?.elim .idle LifecycleEvent.phase ∧
      told.map LifecycleEvent.generation? = [some 1, some 1, some 2, some 2] ∧
      InPlace (told.take 3) (.closed 2 (.abnormal Failure.connectTimeout.message)) := by
  intro inputs m told
  have htold := events_tell_books "ws://localhost:80/" inputs
  have finished : ¬m.Busy := fun busy => busy.1 rfl
  exact ⟨finished, htold.2.2.1 finished, rfl, htold.1 _ _ [] rfl⟩

end Manager

end PersistentLink
