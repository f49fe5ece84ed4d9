import PersistentLink.Proofs.Ensemble.Channel
import PersistentLink.Proofs.Manager.Inbound

/-!
# Delivery of inbound messages

A reader passes messages on to the manager, which may be busy writing and may lose the link before
it comes to handle them. As messages are handled before commands, and a reader that was given up
passes nothing on, none of them is ever too late: each is shown once, in the order in which the
messages came in, to the observers that are registered by then.

## Main definitions

- `Ensemble.arrivals`: the messages that readers pass on in a run
- `Ensemble.Attentive`: readers and waiting events belong to the present generation
- `Ensemble.Conveys`: what a move does with messages

## Main results

- `Ensemble.Attentive.conveys`: a move loses no message
- `Ensemble.messages_delivered_once`: every message is shown once, unless it still waits
-/

namespace PersistentLink

/-- The message of a link that waits to be handled, and the generation of the link. -/
def Message.inbound? : Message → Option (Nat × Payload)
  | linkEvent generation (.message payload) => some (generation, payload)
  | _ => none

namespace Ensemble

open Manager Effect

/-- The message that a reader passes on to the manager by a move, and the generation of its link. -/
def arrival (e : Ensemble) : Move → Option (Nat × Payload)
  | .read link (.message payload) =>
    if e.present then
      (e.readers.find? (·.link == link)).map fun task => (task.generation, payload)
    else none
  | _ => none

/-- The messages that readers pass on to the manager in a run, in order. -/
def arrivals (e : Ensemble) : List Move → List (Nat × Payload)
  | [] => []
  | move :: rest =>
    (e.arrival move).toList ++
      match e.move move with
      | some (next, _) => next.arrivals rest
      | none => []

/-- The messages that wait to be handled. -/
def waiting (e : Ensemble) : List (Nat × Payload) :=
  e.inbox.filterMap Message.inbound?

/-! ## Reader tasks -/

/-- The reader tasks after something was done about the reading of links. A task that is given up
ends at once. -/
def tend (tasks : List ReaderTask) : Reading → List ReaderTask
  | .started link generation => tasks ++ [{ link, generation }]
  | .abandoned => []
  | _ => tasks

theorem foldl_tend_readings (tasks : List ReaderTask) (delivery : Delivery) :
    delivery.readings.foldl tend tasks = tasks := by
  refine List.foldlRecOn (motive := fun next => next = tasks) _ _ rfl ?_
  rintro next rfl reading hmem
  have hinbound := (Delivery.isInbound_of_mem_readings hmem).1
  cases reading with
  | started | abandoned => exact absurd hinbound Bool.false_ne_true
  | announced | shown | discarded => rfl

/-- Reader tasks are started and given up as the manager says, if none of them is pinned. -/
theorem readers_foldl_absorb {e : Ensemble} (effects : List Effect)
    (unpinned : ∀ task ∈ e.readers, task.pinned = false) :
    (effects.foldl absorb e).readers = (readings effects).foldl tend e.readers := by
  induction effects generalizing e with
  | nil => rfl
  | cons effect rest ih =>
    rw [List.foldl_cons, readings, seen_cons, List.foldl_append]
    cases effect with
    | startReader link generation =>
      refine ih fun task hmem => ?_
      obtain hearlier | hnew := List.mem_append.mp hmem
      · exact unpinned task hearlier
      · rw [List.mem_singleton.mp hnew]
    | abandonReader =>
      have hleft : (e.absorb .abandonReader).readers = [] := by
        simpa [absorb, List.filter_eq_nil_iff] using unpinned
      rw [ih (by simp [hleft]), hleft]
      rfl
    | log record => cases record <;> exact ih unpinned
    | _ => exact ih unpinned

/-! ## Readers and waiting events -/

/-- Whoever reads, and whatever waits, belongs to the present generation. -/
structure Attentive (e : Ensemble) : Prop where
  sound : e.manager.Sound
  /-- only the link that is held is read -/
  reads : ∀ task ∈ e.readers, task.pinned = false ∧ task.generation = e.manager.generation ∧
    e.manager.reader = some task.link
  /-- an event that waits will not be stale -/
  timely : ∀ generation event, .linkEvent generation event ∈ e.inbox →
    generation = e.manager.generation ∧ ¬e.manager.Deaf
  /-- a link that has reported its close is not read any more -/
  closed : ∀ generation status, .linkEvent generation (.closed status) ∈ e.inbox →
    e.readers = []

variable {e next : Ensemble} {input : Input}

theorem attentive_start (settings : Settings) : (ofSettings settings).Attentive where
  sound := sound_new settings.endpoint.url
  reads := by simp [ofSettings]
  timely := by simp [ofSettings]
  closed := by simp [ofSettings]

theorem Attentive.unpinned (h : e.Attentive) : ∀ task ∈ e.readers, task.pinned = false :=
  fun task hmem => (h.reads task hmem).1

theorem Attentive.readers_eq_nil (h : e.Attentive) (unread : e.manager.reader = none) :
    e.readers = [] := by
  rw [List.eq_nil_iff_forall_not_mem]
  intro task hmem
  simp [(h.reads task hmem).2.2] at unread

theorem feed_readers (h : e.Attentive) (input : Input) :
    (e.feed input).1.readers = (readings (e.manager.step input).2).foldl tend e.readers :=
  readers_foldl_absorb (e := { e with manager := (e.manager.step input).1 }) _ h.unpinned

/-- The manager handles an input while nothing waits that could become stale by it. -/
structure Admits (e : Ensemble) (input : Input) : Prop where
  attentive : e.Attentive
  /-- an order is handled once no event waits -/
  unordered : input.isOrder = true → ∀ generation event, .linkEvent generation event ∉ e.inbox
  /-- a link that has closed is not read any more -/
  closed : ∀ generation status panicking,
    input = .linkEvent generation (.closed status) panicking → e.readers = []
  /-- the event that is handled is not stale -/
  timely : ∀ generation event panicking, input = .linkEvent generation event panicking →
    generation = e.manager.generation

/-- The readers of the manager stay those of the present generation. -/
theorem Admits.reads (h : e.Admits input) :
    ∀ task ∈ (e.feed input).1.readers, task.pinned = false ∧
      task.generation = (e.manager.step input).1.generation ∧
      (e.manager.step input).1.reader = some task.link := by
  have hattentive := h.attentive
  have hsound := hattentive.sound
  rw [feed_readers hattentive]
  have gone {tasks : List ReaderTask} {done : List Reading} (hdone : done.foldl tend tasks = []) :
      ∀ task ∈ done.foldl tend tasks, task.pinned = false ∧
        task.generation = (e.manager.step input).1.generation ∧
        (e.manager.step input).1.reader = some task.link := by
    simp [hdone]
  cases (hsound.turn input).reads hsound with
  | shown payload panicking hinput ready hbooks hreadings =>
    rw [hreadings, foldl_tend_readings, hbooks]
    exact hattentive.reads
  | discarded generation event panicking hinput stale =>
    exact absurd (h.timely _ _ _ hinput) stale
  | started link _ unread _ hgeneration hreader hreadings =>
    rw [hreadings, hattentive.readers_eq_nil unread]
    intro task hmem
    obtain rfl : task = { link, generation := e.manager.generation } :=
      List.mem_singleton.mp hmem
    exact ⟨rfl, hgeneration.symm, hreader⟩
  | abandoned _ _ hreadings =>
    rw [hreadings]
    exact gone rfl
  | ended status panicking hinput _ hreadings =>
    rw [hreadings]
    exact gone (h.closed _ _ _ hinput)
  | silent _ hreader hgeneration hreadings =>
    rw [hreadings]
    obtain unread | hsame := hgeneration
    · exact gone (hattentive.readers_eq_nil unread)
    · rw [hreader, hsame]
      exact hattentive.reads

theorem Admits.keeps_timely (h : e.Admits input) {generation : Nat} {event : LinkEvent}
    (hmem : .linkEvent generation event ∈ e.inbox) :
    generation = (e.manager.step input).1.generation ∧ ¬(e.manager.step input).1.Deaf := by
  obtain ⟨hgeneration, heeds⟩ := h.attentive.timely generation event hmem
  have unordered : input.isOrder = false := by
    rw [← Bool.not_eq_true]
    exact fun order => h.unordered order generation event hmem
  obtain ⟨hsame, hnext⟩ := (h.attentive.sound.turn input).attends h.attentive.sound heeds unordered
  exact ⟨hgeneration.trans hsame.symm, hnext⟩

/-- No reader starts while an event waits. -/
theorem Admits.feed_readers_eq_nil (h : e.Admits input) (unread : e.readers = [])
    {generation : Nat} {event : LinkEvent} (hmem : .linkEvent generation event ∈ e.inbox) :
    (e.feed input).1.readers = [] := by
  have hsound := h.attentive.sound
  have heeds := (h.attentive.timely generation event hmem).2
  rw [feed_readers h.attentive, unread]
  cases (hsound.turn input).reads hsound with
  | shown _ _ _ _ _ hreadings => rw [hreadings, foldl_tend_readings]
  | discarded _ _ _ hinput stale => exact absurd (h.timely _ _ _ hinput) stale
  | started _ connecting => exact absurd (.inl connecting) heeds
  | abandoned _ _ hreadings | ended _ _ _ _ hreadings | silent _ _ _ hreadings =>
    rw [hreadings]
    rfl

theorem Admits.feed (h : e.Admits input) : (e.feed input).1.Attentive where
  sound := by
    rw [feed_manager]
    exact h.attentive.sound.step input
  reads := by
    rw [feed_manager]
    exact h.reads
  timely := by
    rw [feed_manager, feed_inbox]
    exact fun generation event => h.keeps_timely
  closed := by
    rw [feed_inbox]
    exact fun generation status hmem =>
      h.feed_readers_eq_nil (h.attentive.closed generation status hmem) hmem

/-- Nothing is done about events when an input is handled, but to show the message that it
brings. -/
theorem Admits.inbounds_eq (h : e.Admits input) :
    inbounds (e.manager.step input).2 =
      (e.manager.deliveries e.manager.observers [input]).flatMap Delivery.readings := by
  have hsound := h.attentive.sound
  have silent {done : List Reading} (hreadings : readings (e.manager.step input).2 = done)
      (hdone : done.filter Reading.isInbound = []) (unbrought : e.manager.brought input = none) :
      inbounds (e.manager.step input).2 =
        (e.manager.deliveries e.manager.observers [input]).flatMap Delivery.readings := by
    rw [inbounds, hreadings, hdone]
    simp [deliveries, unbrought]
  cases (hsound.turn input).reads hsound with
  | shown payload panicking hinput ready _ hreadings =>
    have hshown : inbounds (e.manager.step input).2 =
        Delivery.readings ⟨e.manager.generation, payload, e.manager.observers⟩ := by
      rw [inbounds, hreadings, List.filter_eq_self]
      exact fun reading hmem => (Delivery.isInbound_of_mem_readings hmem).1
    rw [hshown, hinput]
    simp [deliveries, brought, ready]
  | discarded _ _ _ hinput stale => exact absurd (h.timely _ _ _ hinput) stale
  | started _ _ _ unbrought _ _ hreadings => exact silent hreadings rfl unbrought
  | abandoned unbrought _ hreadings => exact silent hreadings rfl unbrought
  | ended status panicking hinput _ hreadings =>
    exact silent hreadings rfl (by rw [hinput]; rfl)
  | silent unbrought _ _ hreadings => exact silent hreadings rfl unbrought

/-! ## One move -/

/-- What a move does with messages: those that have waited, and the one that comes in, are shown or
wait. -/
structure Conveys (e : Ensemble) (move : Move) (reaction : Ensemble × List Effect) : Prop where
  attentive : reaction.1.Attentive
  waiting_eq : e.waiting ++ (e.arrival move).toList =
    (e.manager.deliveries e.manager.observers (e.inputOf move).toList).map Delivery.message ++
      reaction.1.waiting
  inbounds_eq : inbounds reaction.2 =
    (e.manager.deliveries e.manager.observers (e.inputOf move).toList).flatMap Delivery.readings

theorem Attentive.conveys_aside {move : Move} {effects : List Effect} (h : next.Attentive)
    (hinput : e.inputOf move = none)
    (hwaiting : e.waiting ++ (e.arrival move).toList = next.waiting)
    (hinbounds : inbounds effects = []) : e.Conveys move (next, effects) where
  attentive := h
  waiting_eq := by
    rw [hinput, hwaiting]
    rfl
  inbounds_eq := by
    rw [hinput, hinbounds]
    rfl

theorem Admits.conveys {before : Ensemble} {move : Move} (h : e.Admits input)
    (hmanager : e.manager = before.manager) (hinput : before.inputOf move = some input)
    (harrival : before.arrival move = none)
    (hwaiting : before.waiting = (before.manager.brought input).toList ++ e.waiting) :
    before.Conveys move (e.feed input) where
  attentive := h.feed
  waiting_eq := by
    have hafter : (e.feed input).1.waiting = e.waiting := by
      rw [waiting, feed_inbox]
      rfl
    rw [hinput, harrival, hafter, Option.toList_some, map_message_deliveries, hwaiting]
    simp
  inbounds_eq := by
    rw [hinput, feed_snd, h.inbounds_eq, hmanager]
    rfl

/-- An outcome of a write or a close can be handled whatever waits. -/
theorem Attentive.admits_outcome (h : e.Attentive) (unordered : input.isOrder = false)
    (hinput : ∀ generation event panicking, input ≠ .linkEvent generation event panicking) :
    e.Admits input where
  attentive := h
  unordered := fun order => absurd order (Bool.eq_false_iff.mp unordered)
  closed := fun _ _ _ heq => absurd heq (hinput _ _ _)
  timely := fun _ _ _ heq => absurd heq (hinput _ _ _)

/-- An order can be handled once no message waits. -/
theorem Attentive.admits_order (h : e.Attentive) (silent : e.inbox = [])
    (order : input.isOrder = true) : e.Admits input where
  attentive := h
  unordered := by simp [silent]
  closed := by
    rintro _ _ _ rfl
    exact absurd order Bool.false_ne_true
  timely := by
    rintro _ _ _ rfl
    exact absurd order Bool.false_ne_true

/-- The first message that waits can be handled. -/
theorem Attentive.admits_message (h : e.Attentive) {message : Message} {rest : List Message}
    (first : e.inbox = message :: rest) (panicking : List ObserverId) :
    { e with inbox := rest }.Admits (message.toInput panicking) where
  attentive :=
    { h with
      timely := fun generation event hmem =>
        h.timely generation event (first ▸ List.mem_cons_of_mem message hmem)
      closed := fun generation status hmem =>
        h.closed generation status (first ▸ List.mem_cons_of_mem message hmem) }
  unordered := by cases message <;> simp [Message.toInput, Input.isOrder]
  closed := by
    intro generation status other hinput
    refine h.closed generation status ?_
    cases message <;> simp_all [Message.toInput]
  timely := by
    intro generation event other hinput
    refine (h.timely generation event ?_).1
    cases message <;> simp_all [Message.toInput]

/-- The end of an attempt that is reported waits beside the events of links. -/
theorem Attentive.endAttempt (h : e.Attentive) (attempt : Attempt)
    (result : Except Failure LinkId) :
    (e.endAttempt attempt result).1.Attentive ∧
      (e.endAttempt attempt result).1.waiting = e.waiting ∧
      inbounds (e.endAttempt attempt result).2 = [] := by
  rw [Ensemble.endAttempt, post]
  split
  · refine ⟨{ h with timely := ?_, closed := ?_ }, ?_, rfl⟩
    · intro generation event hmem
      exact h.timely generation event (by simpa using hmem)
    · intro generation status hmem
      exact h.closed generation status (by simpa using hmem)
    · simp [waiting, Message.inbound?]
  · exact ⟨h, rfl, rfl⟩

/-- A reader that passes an event on goes on reading, or ends with the close of the link. -/
theorem Attentive.readers_passOn (h : e.Attentive) {task other : ReaderTask}
    (hmem : task ∈ e.readers) (event : LinkEvent)
    (hother : other ∈ (e.passOn task event).1.readers) :
    other ∈ e.readers ∧ event.isClosed = false := by
  simp only [passOn, List.mem_filterMap] at hother
  obtain ⟨earlier, hearlier, hkept⟩ := hother
  obtain ⟨unpinned, -, hreader⟩ := h.reads earlier hearlier
  -- there is one link only that is read
  have hlink : earlier.link = task.link :=
    Option.some.inj (hreader.symm.trans (h.reads task hmem).2.2)
  rw [if_pos (by simp [hlink]), Option.ite_none_right_eq_some, Option.some.injEq,
    Bool.and_eq_true] at hkept
  obtain ⟨⟨going, -⟩, rfl⟩ := hkept
  refine ⟨?_, ?_⟩
  · rw [← unpinned]
    exact hearlier
  · simp only [LinkReader.pass, Bool.not_or, Bool.not_not, Bool.and_eq_true,
      Bool.not_eq_eq_eq_not, Bool.not_true] at going
    exact going.2

theorem Attentive.passOn (h : e.Attentive) {task : ReaderTask} (hmem : task ∈ e.readers)
    (event : LinkEvent) : (e.passOn task event).1.Attentive where
  sound := h.sound
  reads := fun other hother => h.reads other (h.readers_passOn hmem event hother).1
  timely := by
    intro generation other hother
    obtain ⟨-, hgeneration, hreader⟩ := h.reads task hmem
    simp only [Ensemble.passOn] at hother
    split at hother
    · obtain hearlier | hnew := List.mem_append.mp hother
      · exact h.timely generation other hearlier
      · obtain ⟨rfl, -⟩ := Message.linkEvent.inj (List.mem_singleton.mp hnew)
        exact ⟨hgeneration, h.sound.not_deaf_of_reader (by simp [hreader])⟩
    · exact h.timely generation other hother
  closed := by
    intro generation status hother
    rw [List.eq_nil_iff_forall_not_mem]
    intro other hleft
    obtain ⟨-, hopen⟩ := h.readers_passOn hmem event hleft
    simp only [Ensemble.passOn] at hother
    have hearlier : .linkEvent generation (.closed status) ∈ e.inbox := by
      split at hother
      · obtain hearlier | hnew := List.mem_append.mp hother
        · exact hearlier
        · obtain ⟨-, rfl⟩ := Message.linkEvent.inj (List.mem_singleton.mp hnew)
          exact absurd hopen (by simp [LinkEvent.isClosed])
      · exact hother
    simp [h.closed generation status hearlier] at hmem

/-- An event that a reader passes on waits, unless the manager is gone. -/
theorem Attentive.conveys_passOn (h : e.Attentive) {link : LinkId} {event : LinkEvent}
    {found : ReaderTask} (hfound : e.readers.find? (·.link == link) = some found) :
    e.Conveys (.read link event) (e.passOn found event) := by
  have hmem := List.mem_of_find?_eq_some hfound
  refine (h.passOn hmem event).conveys_aside rfl ?_ ?_
  · cases present : e.present <;> cases event <;>
      simp [arrival, waiting, Ensemble.passOn, LinkReader.pass, present, hfound,
        Message.inbound?]
  · cases present : e.present <;>
      simp [LinkReader.pass, inbounds, readings, reading?]

/-- A move that is possible loses no message, if it pins no reader. -/
theorem Attentive.conveys (h : e.Attentive) {move : Move} {reaction : Ensemble × List Effect}
    (hmove : e.move move = some reaction) (unpinned : ∀ link, move ≠ .pinReader link) :
    e.Conveys move reaction := by
  cases moved hmove with
  | refused command =>
    refine h.conveys_aside rfl (by simp [arrival]) ?_
    cases command <;> rfl
  | submitted | detached | elapsed | collapsed | called | completed | vanished =>
    exact Attentive.conveys_aside { h with } rfl (by simp [arrival, waiting, withoutAttempt]) rfl
  | messaged panicking message rest present ready first =>
    have hadmits := h.admits_message first panicking
    have hinput : e.inputOf (.handle panicking) = some (message.toInput panicking) := by
      simp [inputOf, nextInput, first]
    refine hadmits.conveys rfl hinput rfl ?_
    rw [waiting, first, waiting, List.filterMap_cons]
    cases message with
    | attemptFinished => rfl
    | linkEvent generation event =>
      cases event with
      | closed => rfl
      | message payload =>
        have hgeneration := hadmits.timely generation (.message payload) panicking rfl
        simp [Message.inbound?, Message.toInput, brought, ready, hgeneration]
  | commanded panicking command rest present ready silent first =>
    have hinput : e.inputOf (.handle panicking) = some (.command command) := by
      simp [inputOf, nextInput, silent, first]
    have hattentive : { e with commands := rest }.Attentive := { h with }
    exact (hattentive.admits_order silent rfl).conveys rfl hinput rfl rfl
  | deserted panicking present ready silent unasked unattached =>
    have hinput : e.inputOf (.handle panicking) = some .commandsEnded := by
      simp [inputOf, nextInput, silent, unasked, unattached]
    exact (h.admits_order silent rfl).conveys rfl hinput rfl rfl
  | wrote result =>
    exact (h.admits_outcome rfl (by simp)).conveys rfl rfl rfl rfl
  | closed result =>
    have hattentive : { e with closeDeadline := none }.Attentive := { h with }
    cases result <;>
      exact (hattentive.admits_outcome rfl (by simp)).conveys rfl rfl rfl rfl
  | expired =>
    have hattentive : { e with closeDeadline := none }.Attentive := { h with }
    exact (hattentive.admits_outcome rfl (by simp)).conveys rfl rfl rfl rfl
  | answered number result attempt | reported number result attempt | timedOut number attempt =>
    have hattentive : (e.withoutAttempt number).Attentive := { h with }
    obtain ⟨hnext, hwaiting, hinbounds⟩ := hattentive.endAttempt attempt _
    refine hnext.conveys_aside rfl ?_ hinbounds
    rw [hwaiting]
    simp [arrival, waiting, withoutAttempt]
  | fastened link => exact absurd rfl (unpinned link)
  | passed link event =>
    simp only [Ensemble.move, Option.map_eq_some_iff] at hmove
    obtain ⟨found, hfound, heq⟩ := hmove
    rw [← heq]
    exact h.conveys_passOn hfound

/-! ## Runs -/

/-- No message is lost in a run, and each is shown once. -/
theorem Attentive.run (h : e.Attentive) {moves : List Move} {last : Ensemble}
    {effects : List Effect} (hrun : e.run moves = some (last, effects))
    (unpinned : ∀ link, .pinReader link ∉ moves) :
    let deliveries := e.manager.deliveries e.manager.observers (e.fed moves)
    e.waiting ++ e.arrivals moves = deliveries.map Delivery.message ++ last.waiting ∧
      inbounds effects = deliveries.flatMap Delivery.readings := by
  induction moves generalizing e effects with
  | nil =>
    obtain ⟨rfl, rfl⟩ := Prod.mk.inj (Option.some.inj hrun)
    exact ⟨by simp [arrivals, fed, deliveries], rfl⟩
  | cons move rest ih =>
    obtain ⟨mid, first, later, hmove, hrest, rfl⟩ := exists_of_run_cons hrun
    have hconveys := h.conveys hmove fun link heq => unpinned link (heq ▸ List.mem_cons_self)
    obtain ⟨hwaiting, hinbounds⟩ := ih hconveys.attentive hrest fun link hmem =>
      unpinned link (List.mem_cons_of_mem move hmem)
    -- the messages of the rest of the run are shown by the manager that the move leaves
    have hmanager := (feeds_of_move hmove).manager_eq
    have hobservers := h.sound.observers_run (e.inputOf move).toList
    rw [← hmanager] at hobservers
    have hdeliveries := e.manager.deliveries_append e.manager.observers (e.inputOf move).toList
      (mid.fed rest)
    rw [← hmanager, ← hobservers] at hdeliveries
    intro deliveries
    have hsplit : deliveries =
        e.manager.deliveries e.manager.observers (e.inputOf move).toList ++
          mid.manager.deliveries mid.manager.observers (mid.fed rest) := by
      rw [← hdeliveries]
      simp only [deliveries, fed, hmove]
    rw [hsplit]
    refine ⟨?_, ?_⟩
    · rw [arrivals, hmove, ← List.append_assoc, hconveys.waiting_eq, List.append_assoc, hwaiting,
        List.map_append, List.append_assoc]
    · rw [inbounds_append, hconveys.inbounds_eq, hinbounds, List.flatMap_append]

/-- **Every message is shown once.** Whatever happens, as long as no reader goes on after it was
given up: the messages that readers have passed on are those that were shown, in the same order, and
then those that still wait. None of them is found to be stale, be it that the link was lost or that
the manager was busy when they came in. A message is shown to the observers that were registered by
the commands handled before it, to each once and in order of registration, whichever of them fail;
and observers are called for nothing else. -/
theorem messages_delivered_once {settings : Settings} {moves : List Move} {last : Ensemble}
    {effects : List Effect} (hrun : (ofSettings settings).run moves = some (last, effects))
    (unpinned : ∀ link, .pinReader link ∉ moves) :
    let start := ofSettings settings
    let deliveries := start.manager.deliveries [] (start.fed moves)
    start.arrivals moves = deliveries.map Delivery.message ++ last.waiting ∧
      (∀ generation current, .log (.staleLinkEvent generation current) ∉ effects) ∧
      inbounds effects = deliveries.flatMap Delivery.readings ∧
      observations effects = deliveries.flatMap Delivery.calls := by
  intro start deliveries
  obtain ⟨harrivals, hinbounds⟩ := (attentive_start settings).run hrun unpinned
  refine ⟨harrivals, fun generation current hmem => ?_, hinbounds, ?_⟩
  · have hdiscarded := mem_inbounds_discarded hmem
    rw [hinbounds, List.mem_flatMap] at hdiscarded
    obtain ⟨delivery, -, hreading⟩ := hdiscarded
    exact (Delivery.isInbound_of_mem_readings hreading).2 _ _ rfl
  · rw [observations_eq, hinbounds, List.filterMap_flatMap]
    exact congrArg (deliveries.flatMap ·) (funext Delivery.filterMap_call_readings)

/-- Two messages come in while the queue is being written, which fails. They are shown once the link
has been given up, though an observer fails on the first one; who is registered later sees
neither. -/
theorem messages_delivered_once_blocked :
    let start := ofSettings {}
    let first : Payload := .text "first"
    let second : Payload := .binary [2]
    let moves : List Move := [.submit (.addObserver 0), .handle [], .submit (.addObserver 1),
      .handle [], .submit (.send (.text "queued")), .handle [], .callOpen false,
      .answerOpen 0 (.ok 7), .handle [], .read 7 (.message first), .read 7 (.message second),
      .submit (.addObserver 2), .written (.error .connectionClosed), .closed (.ok ()),
      .handle [0], .handle [], .handle []]
    start.arrivals moves = [(1, first), (1, second)] ∧
      ∃ last effects, start.run moves = some (last, effects) ∧ last.waiting = [] ∧
        observations effects = [(0, first), (1, first), (0, second), (1, second)] := by
  intro start first second moves
  have hpossible : (start.run moves).isSome = true := by decide +kernel
  obtain ⟨⟨last, effects⟩, hrun⟩ := Option.isSome_iff_exists.mp hpossible
  obtain ⟨harrivals, -, -, hcalls⟩ := messages_delivered_once hrun (by simp [moves])
  have hdeliveries : start.manager.deliveries [] (start.fed moves) =
      [⟨1, first, [0, 1]⟩, ⟨1, second, [0, 1]⟩] := by decide +kernel
  have hin : start.arrivals moves = [(1, first), (1, second)] := by decide +kernel
  rw [hdeliveries] at harrivals hcalls
  refine ⟨hin, last, effects, hrun, ?_, hcalls⟩
  have hleft := hin.symm.trans harrivals
  simpa [Delivery.message] using hleft

end Ensemble

end PersistentLink
