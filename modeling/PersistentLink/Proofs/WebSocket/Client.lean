import PersistentLink.Proofs.WebSocket.Events
import PersistentLink.WebSocket.Client

/-!
# What a client makes of its stream

A client reads frame after frame until there is an item. Every item is made of octets that are
not read again, apart from a failure, which is the last item. So a stream that has ended yields
finitely many items, and a call for the next event, which may take only so many reads, never
runs short of them: it comes to what the sequence of items comes to.

## Main definitions

- `Client.Yields`: the items that a client yields until its stream ends
- `Client.nexts`: the outcome of so many calls
- `Client.Reads`: what a single read may do

## Main results

- `Client.reads_of_read`: a read does no more
- `Client.exists_yields`: a stream that has ended yields finitely many items
- `Client.Yields.next`, `Client.Yields.nexts`: the calls of a client tell of its items
- `messages_then_close`: the events of a WebSocket, and what becomes of them
-/

namespace PersistentLink.WebSocket

namespace Client

variable {c : Client} {items : List Item}

/-- Read after read, a client yields these items, and then its stream is at its end. -/
inductive Yields : Client → List Item → Prop
  | finished {c next : Client} (read : c.read = (.finished, next)) : Yields c []
  | item {c next : Client} {item : Item} {items : List Item} (read : c.read = (.item item, next))
      (rest : Yields next items) : Yields c (item :: items)

/-- What so many calls return, one after the other, and what is logged meanwhile. -/
def nexts : Nat → Client → List (Option LinkEvent) × List LogRecord × Client
  | 0, c => ([], [], c)
  | calls + 1, c =>
    let (event, log, c) := c.next
    let (events, later, c) := nexts calls c
    (event :: events, log ++ later, c)

/-! ## A single read -/

/-- What a single read may do. -/
inductive Reads (c : Client) : Reading → Client → Prop
  | took {item : Item} {next : Client} (shorter : next.received.length < c.received.length)
      (ended : next.ended = c.ended) : Reads c (.item item) next
  | failed {cause : WebSocketFailure} {next : Client} (exhausted : next.exhausted = true) :
      Reads c (.item (.failure cause)) next
  | finished {next : Client} (exhausted : next.exhausted = true) : Reads c .finished next
  | waiting {next : Client} (ended : c.ended = false) : Reads c .waiting next

theorem Reads.of_le {later next : Client} {reading : Reading} (h : later.Reads reading next)
    (hle : later.received.length ≤ c.received.length) (hended : later.ended = c.ended) :
    c.Reads reading next := by
  cases h with
  | took shorter ended => exact .took (Nat.lt_of_lt_of_le shorter hle) (ended.trans hended)
  | failed exhausted => exact .failed exhausted
  | finished exhausted => exact .finished exhausted
  | waiting ended => exact .waiting (hended.symm.trans ended)

theorem reads_atEnd (c : Client) : c.Reads c.atEnd.1 c.atEnd.2 := by
  unfold atEnd
  split
  · exact .finished rfl
  · exact .finished rfl
  · exact .failed rfl

/-- A read goes on from frames that make up no item, and these are not read again. -/
theorem reads_readFrames (c : Client) : c.Reads c.readFrames.1 c.readFrames.2 := by
  fun_induction readFrames c with
  | case1 c hread hended => exact reads_atEnd c
  | case2 c hread hended => exact .waiting (by simpa using hended)
  | case3 c failure hread => exact .failed rfl
  | case4 c frame rest hread failure haccept => exact .failed rfl
  | case5 c frame rest hread item dialogue haccept => exact .took (Frame.read_length hread) rfl
  | case6 c frame rest hread dialogue haccept ih =>
    exact ih.of_le (Nat.le_of_lt (Frame.read_length hread)) rfl

theorem reads_of_read {next : Client} {reading : Reading} (h : c.read = (reading, next)) :
    c.Reads reading next := by
  have hreads : c.Reads c.read.1 c.read.2 := by
    unfold read
    split
    · exact .finished rfl
    · exact (reads_readFrames c.flush).of_le (Nat.le_refl _) rfl
  rwa [h] at hreads

/-- After a read that failed or found the end, the stream is at its end. -/
theorem yields_nil (h : c.exhausted = true) : c.Yields [] := by
  have hread : c.read = (.finished, { c with exhausted := true }) := by simp [read, h]
  exact .finished hread

/-- A stream that has ended yields finitely many items. -/
theorem exists_yields (c : Client) (hended : c.ended = true) : ∃ items, c.Yields items := by
  -- on what is left to read; a failure takes nothing from it, but nothing comes after a failure
  induction hlength : c.received.length using Nat.strongRecOn generalizing c with
  | ind length ih =>
    rcases hread : c.read with ⟨reading, next⟩
    cases reads_of_read hread with
    | took shorter ended =>
      obtain ⟨items, hitems⟩ := ih _ (hlength ▸ shorter) next (ended.trans hended) rfl
      exact ⟨_, .item hread hitems⟩
    | failed exhausted => exact ⟨_, .item hread (yields_nil exhausted)⟩
    | finished => exact ⟨[], .finished hread⟩
    | waiting ended => exact absurd hended (by simp [ended])

/-! ## Calls -/

/-- A call that may take enough reads tells of the next event among the items. -/
theorem Yields.nextWithin {reads : Nat} (h : c.Yields items) (hreads : c.received.length < reads) :
    ∃ next, c.nextWithin reads = (some (nextEvent items).1, (nextEvent items).2.1, next) ∧
      next.Yields (nextEvent items).2.2 := by
  induction h generalizing reads with
  | @finished c next read =>
    obtain ⟨reads, rfl⟩ := Nat.exists_eq_succ_of_ne_zero (Nat.ne_zero_of_lt hreads)
    have hexhausted : next.exhausted = true := by
      cases reads_of_read read with
      | finished exhausted => exact exhausted
    exact ⟨next, by simp [Client.nextWithin, read, nextEvent], yields_nil hexhausted⟩
  | @item c next item items read rest ih =>
    obtain ⟨reads, rfl⟩ := Nat.exists_eq_succ_of_ne_zero (Nat.ne_zero_of_lt hreads)
    cases hevent : item.event? with
    | some event =>
      rw [nextEvent_of_some hevent]
      exact ⟨next, by simp [Client.nextWithin, read, hevent, Item.log], rest⟩
    | none =>
      -- a control frame is no failure, so it was made of octets
      have hshorter : next.received.length < c.received.length := by
        cases reads_of_read read with
        | took shorter => exact shorter
        | failed => simp [Item.event?] at hevent
      obtain ⟨last, hlast, hyields⟩ := ih (show next.received.length < reads by omega)
      rw [nextEvent_of_none hevent]
      exact ⟨last, by simp [Client.nextWithin, read, hevent, hlast, Item.log], hyields⟩

theorem Yields.next (h : c.Yields items) :
    ∃ next, c.next = (some (nextEvent items).1, (nextEvent items).2.1, next) ∧
      next.Yields (nextEvent items).2.2 :=
  h.nextWithin (Nat.lt_succ_self _)

/-- Calls of a client tell of its items. -/
theorem Yields.nexts (h : c.Yields items) (calls : Nat) :
    ∃ rest, c.nexts calls =
        ((nextEvents calls items).1.map some, (nextEvents calls items).2.1, rest) ∧
      rest.Yields (nextEvents calls items).2.2 := by
  induction calls generalizing c items with
  | zero => exact ⟨c, rfl, h⟩
  | succ calls ih =>
    obtain ⟨next, hnext, hyields⟩ := h.next
    obtain ⟨rest, hrest, hleft⟩ := ih hyields
    exact ⟨rest, by simp [Client.nexts, hnext, hrest, nextEvents], hleft⟩

end Client

/-! ## The events of a WebSocket -/

/-- Calls for the next event, made until the first close, return the messages among the items, in
order, up to the first close, failure or end, and then one close that says which it was. Control
frames make no difference, wherever they stand. The calls leave what follows the close. The reader
of the link passes on just these events, tagged with the generation, and makes no further call.
All this is what a client does whose stream yields the items. -/
theorem messages_then_close (generation : Nat) (items : List Item) :
    eventsOf items =
      ((items.takeWhile (!·.isLast)).filterMap Item.payload?).map LinkEvent.message ++
        [.closed (lastStatus (items.find? Item.isLast))] ∧
    (∀ others : List Item,
      others.filter (!·.isControl) = items.filter (!·.isControl) →
        eventsOf others = eventsOf items) ∧
    nextEvents (eventsOf items).length items =
      (eventsOf items,
        ((items.takeWhile (!·.isLast)).filter Item.isControl).map
          (.controlFrameIgnored ·.kindName),
        (items.dropWhile (!·.isLast)).tail) ∧
    (∀ calls, (eventsOf items).length ≤ calls →
      let progress := LinkReader.run generation none (nextEvents calls items).1
      progress.finished = true ∧ progress.reads = (eventsOf items).length ∧
        progress.forwarded = (eventsOf items).map (generation, ·)) ∧
    (∀ client : Client, client.Yields items → ∀ calls,
      ∃ rest, client.nexts calls =
          ((nextEvents calls items).1.map some, (nextEvents calls items).2.1, rest) ∧
        rest.Yields (nextEvents calls items).2.2) := by
  refine ⟨eventsOf_eq items, ?controls, nextEvents_eventsOf items, ?passed,
    fun client hyields => hyields.nexts⟩
  case controls =>
    intro others hsame
    calc eventsOf others
      _ = eventsOf (others.filter (!·.isControl)) := (eventsOf_filter others).symm
      _ = eventsOf (items.filter (!·.isControl)) := by rw [hsame]
      _ = eventsOf items := eventsOf_filter items
  case passed =>
    intro calls hcalls
    rw [run_nextEvents generation hcalls]
    exact ⟨rfl, rfl, rfl⟩

/-- Messages between control frames and before a close, after which nothing counts; and octets that
come to a ping, a message and a close. -/
theorem messages_then_close_controls :
    let items : List Item := [.ping [1], .text "a", .frame [], .pong [], .binary [2],
      .close (some ⟨1001, "bye"⟩), .text "late"]
    let client : Client := { received := [0x89, 0, 0x82, 1, 0x61, 0x88, 0], ended := true }
    let heard : List Item := [.ping [], .binary [0x61], .close none]
    (3 ≤ (eventsOf items).length ∧ (LinkReader.run 7 none (nextEvents 4 items).1).forwarded =
      [(7, .message (.text "a")), (7, .message (.binary [2])), (7, .closed ⟨1001, "bye"⟩)]) ∧
    (client.Yields heard ∧
      ∃ rest, client.nexts 2 =
        ([some (.message (.binary [0x61])), some (.closed ⟨1005, ""⟩)],
          [.controlFrameIgnored "ping"], rest)) := by
  intro items client heard
  have hyields : client.Yields heard := by
    apply Client.Yields.item
    · rw [Client.read, if_neg (by decide), Client.readFrames]
      rfl
    apply Client.Yields.item
    · rw [Client.read, if_neg (by decide), Client.readFrames]
      rfl
    apply Client.Yields.item
    · rw [Client.read, if_neg (by decide), Client.readFrames]
      rfl
    apply Client.Yields.finished
    rw [Client.read, if_neg (by decide), Client.readFrames]
    rfl
  obtain ⟨hevents, -, -, hpassed, -⟩ := messages_then_close 7 items
  have hthree : eventsOf items =
      [.message (.text "a"), .message (.binary [2]), .closed ⟨1001, "bye"⟩] := hevents
  rw [hthree] at hpassed ⊢
  obtain ⟨-, -, hforwarded⟩ := hpassed 4 (by decide)
  obtain ⟨rest, hnexts, -⟩ := (messages_then_close 7 heard).2.2.2.2 client hyields 2
  exact ⟨⟨by decide, hforwarded⟩, hyields, rest, hnexts⟩

end PersistentLink.WebSocket
