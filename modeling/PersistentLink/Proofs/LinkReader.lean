import Mathlib.Data.List.TakeDrop
import PersistentLink.LinkReader

/-!
# Runs of a link's reader

A reader passes on what it reads until it has passed on the close of the link, or until nobody
listens; else it waits for its link for ever. Which of the three it comes to is settled by the
first close among the events of the link and by the read during which the listener goes away. If
both fall on the same read, the listener is gone before the close is passed on.

## Main definitions

- `ClosesAt`: the close of the link arrives
- `DesertedAt`: the listener goes away while there are events to come
- `tagged`, `announced`: what arrives of a list of events, and what is logged about it

## Main results

- `run_eq_after`: the reader after any number of messages that arrived
- `run_of_closesAt`, `run_of_desertedAt`, `run_of_waiting`: the three ends of a run
- `prefix_passed_on`: what is read and what arrives, whatever the link yields and whenever the
  listener goes away
-/

namespace PersistentLink.LinkReader

variable {generation number : Nat} {goneAt : Option Nat} {event : LinkEvent}
  {events rest : List LinkEvent}

/-- The events as they arrive. -/
def tagged (generation : Nat) (events : List LinkEvent) : List (Nat × LinkEvent) :=
  events.map (generation, ·)

/-- What is logged while the events are passed on. -/
def announced (generation : Nat) (events : List LinkEvent) : List LogRecord :=
  events.map (.forwarding generation ·.isClosed)

theorem tagged_append (generation : Nat) (first later : List LinkEvent) :
    tagged generation (first ++ later) = tagged generation first ++ tagged generation later :=
  List.map_append

theorem announced_append (generation : Nat) (first later : List LinkEvent) :
    announced generation (first ++ later) =
      announced generation first ++ announced generation later :=
  List.map_append

/-- The first close among the events has number `k`, and somebody listens when it is read. -/
def ClosesAt (goneAt : Option Nat) (events : List LinkEvent) (k : Nat) : Prop :=
  events.findIdx? LinkEvent.isClosed = some k ∧ ∀ n, goneAt = some n → k < n

/-- The listener goes away during read `n`, and that read brings an event. -/
def DesertedAt (goneAt : Option Nat) (events : List LinkEvent) (n : Nat) : Prop :=
  goneAt = some n ∧ n < events.length

namespace Progress

/-- How far a reader has come that passed some events on before. The reads count from the first
event of the link, so they are not changed. -/
def after (progress : Progress) (generation : Nat) (seen : List LinkEvent) : Progress :=
  { progress with
    forwarded := tagged generation seen ++ progress.forwarded
    log := announced generation seen ++ progress.log }

@[simp]
theorem after_nil (progress : Progress) : progress.after generation [] = progress := rfl

theorem after_after (progress : Progress) (first later : List LinkEvent) :
    (progress.after generation later).after generation first =
      progress.after generation (first ++ later) := by
  simp [after, tagged_append, announced_append]

end Progress

/-! ## A single read -/

theorem all_lt_iff : goneAt.all (number < ·) = true ↔ ∀ n, goneAt = some n → number < n := by
  cases goneAt <;> simp

/-- A message that arrives is followed by the next read. -/
theorem runFrom_message (hopen : event.isClosed = false)
    (heard : ∀ n, goneAt = some n → number < n) :
    runFrom generation goneAt number (event :: rest) =
      (runFrom generation goneAt (number + 1) rest).after generation [event] := by
  simp [runFrom, pass, all_lt_iff.mpr heard, hopen, Progress.after, tagged, announced]

theorem runFrom_closed (hclosed : event.isClosed = true)
    (heard : ∀ n, goneAt = some n → number < n) :
    runFrom generation goneAt number (event :: rest) =
      ⟨true, number + 1, tagged generation [event], announced generation [event]⟩ := by
  simp [runFrom, pass, all_lt_iff.mpr heard, hclosed, tagged, announced]

theorem runFrom_deserted :
    runFrom generation (some number) number (event :: rest) =
      ⟨true, number + 1, [], announced generation [event] ++ [.readerOrphaned generation]⟩ := by
  simp [runFrom, pass, announced]

/-! ## A whole run -/

/-- After `k` reads that all brought messages, and as long as somebody listens, these have arrived
and the reader is at read `k`. The three ends of a run follow, each with a `k` of its own. -/
theorem run_eq_after {k : Nat} (hk : k ≤ events.length)
    (messages : ∀ event ∈ events.take k, event.isClosed = false)
    (heard : ∀ n, goneAt = some n → k ≤ n) :
    run generation goneAt events =
      (runFrom generation goneAt k (events.drop k)).after generation (events.take k) := by
  induction k with
  | zero => rfl
  | succ k ih =>
    have hsplit : events.take (k + 1) = events.take k ++ [events[k]] :=
      (List.take_concat_get' events k hk).symm
    rw [hsplit] at messages ⊢
    -- read `k` brings a message that arrives, so the reader comes to read `k + 1`
    have hopen : events[k].isClosed = false :=
      messages _ (List.mem_append_right _ (List.mem_singleton_self _))
    calc run generation goneAt events
      _ = (runFrom generation goneAt k (events.drop k)).after generation (events.take k) :=
        ih (Nat.le_of_succ_le hk) (fun event hmem => messages event (List.mem_append_left _ hmem))
          fun n hn => Nat.le_of_succ_le (heard n hn)
      _ = ((runFrom generation goneAt (k + 1) (events.drop (k + 1))).after generation
            [events[k]]).after generation (events.take k) := by
        rw [List.drop_eq_getElem_cons hk, runFrom_message hopen heard]
      _ = _ := Progress.after_after ..

theorem messages_of_findIdx? {k : Nat} (h : events.findIdx? LinkEvent.isClosed = some k) :
    ∀ event ∈ events.take k, event.isClosed = false := by
  obtain ⟨hk, -, hbefore⟩ := List.findIdx?_eq_some_iff_getElem.mp h
  intro event hmem
  obtain ⟨i, hi, rfl⟩ := List.mem_take_iff_getElem.mp hmem
  exact Bool.eq_false_iff.mpr (hbefore i (by omega))

/-- The reader ends when it has passed on the close of its link. -/
theorem run_of_closesAt {k : Nat} (h : ClosesAt goneAt events k) :
    run generation goneAt events =
      ⟨true, k + 1, tagged generation (events.take (k + 1)),
        announced generation (events.take (k + 1))⟩ := by
  obtain ⟨hclose, heard⟩ := h
  obtain ⟨hk, hclosed, -⟩ := List.findIdx?_eq_some_iff_getElem.mp hclose
  have hlater : ∀ n, goneAt = some n → k ≤ n := fun n hn => Nat.le_of_lt (heard n hn)
  rw [run_eq_after (Nat.le_of_lt hk) (messages_of_findIdx? hclose) hlater,
    List.drop_eq_getElem_cons hk, runFrom_closed hclosed heard,
    ← List.take_concat_get' events k hk, tagged_append, announced_append]
  rfl

/-- Before the read during which the listener goes away, there are only messages, unless the
close of the link arrives. -/
theorem DesertedAt.messages {n : Nat} (h : DesertedAt goneAt events n)
    (hclose : ¬∃ k, ClosesAt goneAt events k) :
    ∀ event ∈ events.take n, event.isClosed = false := by
  obtain ⟨rfl, -⟩ := h
  cases hfirst : events.findIdx? LinkEvent.isClosed with
  | none =>
    intro event hmem
    exact List.findIdx?_eq_none_iff.mp hfirst event (List.mem_of_mem_take hmem)
  | some k =>
    have hle : n ≤ k := by
      by_contra hlt
      exact hclose ⟨k, hfirst, by simpa using hlt⟩
    intro event hmem
    refine messages_of_findIdx? hfirst event ?_
    exact (List.take_subset_take_left events hle) hmem

/-- The reader ends when it finds that nobody listens. The event it has read is lost. -/
theorem run_of_desertedAt {n : Nat} (h : DesertedAt goneAt events n)
    (hclose : ¬∃ k, ClosesAt goneAt events k) :
    run generation goneAt events =
      ⟨true, n + 1, tagged generation (events.take n),
        announced generation (events.take (n + 1)) ++ [.readerOrphaned generation]⟩ := by
  have messages := h.messages hclose
  obtain ⟨rfl, hn⟩ := h
  rw [run_eq_after (Nat.le_of_lt hn) messages (by simp), List.drop_eq_getElem_cons hn,
    runFrom_deserted, ← List.take_concat_get' events n hn, announced_append]
  simp [Progress.after]

/-- A listener who is there for all events would hear a close among them. -/
theorem messages_of_waiting (hclose : ¬∃ k, ClosesAt goneAt events k)
    (hgone : ¬∃ n, DesertedAt goneAt events n) :
    (∀ n, goneAt = some n → events.length ≤ n) ∧ ∀ event ∈ events, event.isClosed = false := by
  have heard : ∀ n, goneAt = some n → events.length ≤ n := by
    intro n hn
    by_contra hlt
    exact hgone ⟨n, hn, Nat.lt_of_not_le hlt⟩
  refine ⟨heard, ?_⟩
  cases hfirst : events.findIdx? LinkEvent.isClosed with
  | none => exact List.findIdx?_eq_none_iff.mp hfirst
  | some k =>
    obtain ⟨hk, -⟩ := List.findIdx?_eq_some_iff_getElem.mp hfirst
    exact absurd ⟨k, hfirst, fun n hn => Nat.lt_of_lt_of_le hk (heard n hn)⟩ hclose

/-- Otherwise everything arrives, and the reader is left with a read that never ends. -/
theorem run_of_waiting (hclose : ¬∃ k, ClosesAt goneAt events k)
    (hgone : ¬∃ n, DesertedAt goneAt events n) :
    run generation goneAt events =
      ⟨false, events.length + 1, tagged generation events, announced generation events⟩ := by
  obtain ⟨heard, messages⟩ := messages_of_waiting hclose hgone
  -- all events count as read by then, and the read after them never ends
  rw [← List.take_length (l := events)] at messages
  rw [run_eq_after (Nat.le_refl _) messages heard]
  simp [runFrom, Progress.after]

/-! ## What a reader does not read -/

/-- Whether the close has number `k` is settled by the events up to it. -/
theorem closesAt_take {m k : Nat} (hk : k < m) :
    ClosesAt goneAt (events.take m) k ↔ ClosesAt goneAt events k := by
  have hfirst : (events.take m).findIdx? LinkEvent.isClosed = some k ↔
      events.findIdx? LinkEvent.isClosed = some k := by
    rw [List.findIdx?_take]
    cases events.findIdx? LinkEvent.isClosed with
    | none => simp
    | some j =>
      simp only [Option.bind_some, Option.guard_eq_some_iff, decide_eq_true_eq, Option.some.injEq]
      exact ⟨And.left, fun hj => ⟨hj, hj ▸ hk⟩⟩
  exact and_congr_left' hfirst

/-- A reader that has ended has looked at no event after those that it read. -/
theorem run_eq_of_take_eq {others : List LinkEvent}
    (hfinished : (run generation goneAt events).finished = true)
    (hsame : others.take (run generation goneAt events).reads =
      events.take (run generation goneAt events).reads) :
    run generation goneAt others = run generation goneAt events := by
  by_cases hclose : ∃ k, ClosesAt goneAt events k
  · obtain ⟨k, hk⟩ := hclose
    simp only [run_of_closesAt hk] at hsame ⊢
    have hother : ClosesAt goneAt others k := by
      rw [← closesAt_take k.lt_succ_self, hsame, closesAt_take k.lt_succ_self]
      exact hk
    rw [run_of_closesAt hother, hsame]
  by_cases hgone : ∃ n, DesertedAt goneAt events n
  · obtain ⟨n, hn⟩ := hgone
    simp only [run_of_desertedAt hn hclose] at hsame ⊢
    have hlength := congrArg List.length hsame
    simp only [List.length_take] at hlength
    have hother : DesertedAt goneAt others n := ⟨hn.1, by have := hn.2; omega⟩
    -- a close that arrives does so before the listener goes away, where nothing differs
    have hopen : ¬∃ k, ClosesAt goneAt others k := by
      rintro ⟨k, hk⟩
      have hlt : k < n + 1 := Nat.lt_succ_of_lt (hk.2 n hn.1)
      rw [← closesAt_take hlt, hsame, closesAt_take hlt] at hk
      exact hclose ⟨k, hk⟩
    have hbefore : others.take n = events.take n := by
      simpa [List.take_take] using congrArg (List.take n) hsame
    rw [run_of_desertedAt hother hopen, hsame, hbefore]
  · rw [run_of_waiting hclose hgone] at hfinished
    cases hfinished

/-- All reads but the last one have brought messages, and these have arrived. -/
theorem exists_arrived (generation : Nat) (goneAt : Option Nat) (events : List LinkEvent) :
    ∃ m arrived, m ≤ arrived ∧ m ≤ events.length ∧
      (∀ event ∈ events.take m, event.isClosed = false) ∧
      (run generation goneAt events).reads = m + 1 ∧
      (run generation goneAt events).forwarded = tagged generation (events.take arrived) := by
  by_cases hclose : ∃ k, ClosesAt goneAt events k
  · obtain ⟨k, hk⟩ := hclose
    obtain ⟨hlength, -⟩ := List.findIdx?_eq_some_iff_getElem.mp hk.1
    rw [run_of_closesAt hk]
    exact ⟨k, k + 1, k.le_succ, Nat.le_of_lt hlength, messages_of_findIdx? hk.1, rfl, rfl⟩
  by_cases hgone : ∃ n, DesertedAt goneAt events n
  · obtain ⟨n, hn⟩ := hgone
    rw [run_of_desertedAt hn hclose]
    exact ⟨n, n, n.le_refl, Nat.le_of_lt hn.2, hn.messages hclose, rfl, rfl⟩
  · obtain ⟨-, messages⟩ := messages_of_waiting hclose hgone
    rw [run_of_waiting hclose hgone]
    exact ⟨events.length, events.length, Nat.le_refl _, Nat.le_refl _,
      by rwa [List.take_length], rfl, by rw [List.take_length]⟩

/-- A read that is not the last one has brought a message, which is found in its place among what
arrived. -/
theorem exists_message {i : Nat} (hi : i + 1 < (run generation goneAt events).reads) :
    ∃ payload, events[i]? = some (.message payload) ∧
      (run generation goneAt events).forwarded[i]? = some (generation, .message payload) := by
  obtain ⟨m, arrived, harrived, hlength, messages, hreads, hforwarded⟩ :=
    exists_arrived generation goneAt events
  rw [hreads] at hi
  have hlt : i < events.length := by omega
  have hopen := messages events[i] (List.mem_take_iff_getElem.mpr ⟨i, by omega, rfl⟩)
  cases hevent : events[i] with
  | closed status => simp [hevent, LinkEvent.isClosed] at hopen
  | message payload =>
    have hget : events[i]? = some (.message payload) := by
      rw [List.getElem?_eq_getElem hlt, hevent]
    refine ⟨payload, hget, ?_⟩
    rw [hforwarded, tagged, List.getElem?_map, List.getElem?_take_of_lt (by omega), hget]
    rfl

/-- A reader passes a prefix of the events on, and reads nothing that it does not need to. If the
first close is read while somebody listens, that is the end, and it has arrived. If the listener
goes away before, the event of that read is the last one read, and it has not arrived. Else all
events arrive, and the reader waits for more. Every read that is not the last one has brought a
message that has arrived, and what else the link might yield is not looked at. -/
theorem prefix_passed_on (generation : Nat) (goneAt : Option Nat) (events : List LinkEvent) :
    let progress := run generation goneAt events
    (∀ k, ClosesAt goneAt events k →
      progress.finished = true ∧ progress.reads = k + 1 ∧
        progress.forwarded = (events.take (k + 1)).map (generation, ·)) ∧
    ((¬∃ k, ClosesAt goneAt events k) → ∀ n, DesertedAt goneAt events n →
      progress.finished = true ∧ progress.reads = n + 1 ∧
        progress.forwarded = (events.take n).map (generation, ·)) ∧
    ((¬∃ k, ClosesAt goneAt events k) → (¬∃ n, DesertedAt goneAt events n) →
      progress.finished = false ∧ progress.reads = events.length + 1 ∧
        progress.forwarded = events.map (generation, ·)) ∧
    (∀ i, i + 1 < progress.reads →
      ∃ payload, events[i]? = some (.message payload) ∧
        progress.forwarded[i]? = some (generation, .message payload)) ∧
    (progress.finished = true → ∀ others,
      others.take progress.reads = events.take progress.reads →
        run generation goneAt others = progress) := by
  refine ⟨?closes, ?deserted, ?waits, ?reads, fun hfinished others => run_eq_of_take_eq hfinished⟩
  case closes =>
    intro k hk
    rw [run_of_closesAt hk]
    exact ⟨rfl, rfl, rfl⟩
  case deserted =>
    intro hclose n hn
    rw [run_of_desertedAt hn hclose]
    exact ⟨rfl, rfl, rfl⟩
  case waits =>
    intro hclose hgone
    rw [run_of_waiting hclose hgone]
    exact ⟨rfl, rfl, rfl⟩
  case reads => exact fun i => exists_message

/-- Three runs for a link that closes after its first message: to a listener who stays, to one who
leaves during the very read that brings the close, and without the close. -/
theorem prefix_passed_on_leaving :
    let first : LinkEvent := .message (.text "a")
    let events := [first, .closed ⟨1000, ""⟩, .message (.text "b")]
    (ClosesAt none events 1 ∧
      (run 3 none events).forwarded = [(3, first), (3, .closed ⟨1000, ""⟩)]) ∧
    ((¬∃ k, ClosesAt (some 1) events k) ∧ DesertedAt (some 1) events 1 ∧
      (run 3 (some 1) events).reads = 2 ∧ (run 3 (some 1) events).forwarded = [(3, first)]) ∧
    ((¬∃ k, ClosesAt (some 1) [first] k) ∧ (¬∃ n, DesertedAt (some 1) [first] n) ∧
      (run 3 (some 1) [first]).finished = false ∧
      (run 3 (some 1) [first]).forwarded = [(3, first)]) := by
  intro first events
  have hcloses : ClosesAt none events 1 := ⟨by decide, by simp⟩
  -- the close is read, but the listener has left by then
  have hopen : ¬∃ k, ClosesAt (some 1) events k := by
    rintro ⟨k, hfirst, heard⟩
    obtain rfl : 1 = k := Option.some.inj hfirst
    exact absurd (heard 1 rfl) (Nat.lt_irrefl 1)
  have hdeserted : DesertedAt (some 1) events 1 := ⟨rfl, by decide⟩
  have hnone : ¬∃ k, ClosesAt (some 1) [first] k := fun ⟨k, hfirst, _⟩ => by cases hfirst
  have hthere : ¬∃ n, DesertedAt (some 1) [first] n := by
    rintro ⟨n, hn, hlt⟩
    obtain rfl : 1 = n := Option.some.inj hn
    exact absurd hlt (Nat.lt_irrefl 1)
  obtain ⟨-, -, hclosed⟩ := (prefix_passed_on 3 none events).1 1 hcloses
  obtain ⟨-, hreads, hlost⟩ := (prefix_passed_on 3 (some 1) events).2.1 hopen 1 hdeserted
  obtain ⟨hwaits, -, hall⟩ := (prefix_passed_on 3 (some 1) [first]).2.2.1 hnone hthere
  exact ⟨⟨hcloses, hclosed⟩, ⟨hopen, hdeserted, hreads, hlost⟩, hnone, hthere, hwaits, hall⟩

end PersistentLink.LinkReader
