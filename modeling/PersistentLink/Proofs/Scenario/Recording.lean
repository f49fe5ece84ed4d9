import PersistentLink.Proofs.Manager.Answers
import PersistentLink.Scenario.World

/-!
# What recording leaves alone

When an effect is recorded, a world changes in what concerns that effect, in the records that are
kept for reports, and in whose turn it is. The far side of a link may change as well, but not in
what its reader holds back. Callers learn only from an answer, and handles and subscribers only from
a phase and an event.

## Main definitions

- `World.Untouched`: worlds that differ at most in turns, records and the far sides of links

## Main results

- `World.untouched_record`: recording what is shown to nobody leaves a world untouched
- `World.exists_reflex`: what an observer does depends on the observers alone
-/

namespace PersistentLink.Scenario

namespace Peer

variable (peer : Peer)

theorem held_afterCall (result : Except Failure Unit) (client : WebSocket.Client) :
    (peer.afterCall result client).2.held = peer.held := by
  cases result <;> rfl

theorem held_write (payload : Payload) : (peer.write payload).2.held = peer.held := by
  unfold write
  split
  · exact peer.held_afterCall _ _
  · split <;> rfl

theorem held_close : peer.close.2.held = peer.held := by
  unfold close
  split
  · exact peer.held_afterCall _ _
  · rfl

theorem held_yield : peer.yield.2.2.held = peer.held := by
  unfold yield
  split
  · rfl
  · split <;> rfl

end Peer

namespace World

/-- A far side with the same event held back was there before. -/
def HeldBefore (w : World) (peers : Array Peer) : Prop :=
  ∀ (link : LinkId) (peer : Peer), peers[link]? = some peer →
    ∃ earlier, w.peers[link]? = some earlier ∧ peer.held = earlier.held

/-- Two worlds differ at most in whose turn it is, in what is kept for a report, and in the far
sides of links, apart from what these hold back. -/
structure Untouched (w v : World) : Prop where
  ensemble_eq : v.ensemble = w.ensemble
  observers_eq : v.observers = w.observers
  handles_eq : v.handles = w.handles
  calls_eq : v.calls = w.calls
  shown_eq : (v.events, v.phase) = (w.events, w.phase)
  replies_eq : (v.script, v.otherwise) = (w.script, w.otherwise)
  held_before : w.HeldBefore v.peers

variable {w v u : World}

theorem heldBefore_peers (w : World) : w.HeldBefore w.peers :=
  fun _ peer hpeer => ⟨peer, hpeer, rfl⟩

theorem heldBefore_set (w : World) {link : LinkId} {peer after : Peer}
    (hpeer : w.peers[link]? = some peer) (hheld : after.held = peer.held) :
    w.HeldBefore (w.peers.setIfInBounds link after) := by
  intro other found hfound
  rw [Array.getElem?_setIfInBounds] at hfound
  split at hfound
  · rename_i hsame
    split at hfound
    · cases hfound
      exact ⟨peer, hsame ▸ hpeer, hheld⟩
    · cases hfound
  · exact ⟨found, hfound, rfl⟩

theorem Untouched.refl (w : World) : Untouched w w :=
  ⟨rfl, rfl, rfl, rfl, rfl, rfl, w.heldBefore_peers⟩

theorem Untouched.trans (hfirst : Untouched w v) (hlater : Untouched v u) : Untouched w u where
  ensemble_eq := hlater.ensemble_eq.trans hfirst.ensemble_eq
  observers_eq := hlater.observers_eq.trans hfirst.observers_eq
  handles_eq := hlater.handles_eq.trans hfirst.handles_eq
  calls_eq := hlater.calls_eq.trans hfirst.calls_eq
  shown_eq := hlater.shown_eq.trans hfirst.shown_eq
  replies_eq := hlater.replies_eq.trans hfirst.replies_eq
  held_before link peer hpeer := by
    obtain ⟨middle, hmiddle, hheld⟩ := hlater.held_before link peer hpeer
    obtain ⟨earlier, hearlier, hbefore⟩ := hfirst.held_before link middle hmiddle
    exact ⟨earlier, hearlier, hheld.trans hbefore⟩

theorem untouched_join (w : World) (party : Party) : Untouched w (w.join party) :=
  ⟨rfl, rfl, rfl, rfl, rfl, rfl, w.heldBefore_peers⟩

theorem untouched_alert (w : World) : Untouched w w.alert := by
  unfold alert
  simp only
  split <;> exact ⟨rfl, rfl, rfl, rfl, rfl, rfl, w.heldBefore_peers⟩

theorem untouched_rule (w : World) (link : LinkId) (mode : Mode) (failure : Failure) :
    Untouched w (w.rule link mode failure) := by
  cases mode with
  | hang =>
    refine ⟨rfl, rfl, rfl, rfl, rfl, rfl, fun other found hfound => ?_⟩
    simp only [rule, Array.getElem?_modify] at hfound
    split at hfound
    · obtain ⟨peer, hpeer, rfl⟩ := Option.map_eq_some_iff.mp hfound
      exact ⟨peer, hpeer, rfl⟩
    · exact ⟨found, hfound, rfl⟩
  | ok | fail | panic => exact ⟨rfl, rfl, rfl, rfl, rfl, rfl, w.heldBefore_peers⟩

/-- A call to the writer of a link leaves a world untouched. -/
theorem untouched_callPeer (w : World) {link : LinkId} {peer after : Peer} (mode : Mode)
    (entry : Trace) (hpeer : w.peers[link]? = some peer) (hheld : after.held = peer.held) :
    Untouched w ({ w with
      peers := w.peers.setIfInBounds link after
      trace := w.trace.push entry }.rule link mode after.behaviour.failure) := by
  refine Untouched.trans ?_ (untouched_rule _ _ _ _)
  exact ⟨rfl, rfl, rfl, rfl, rfl, rfl, w.heldBefore_set hpeer hheld⟩

/-- What is neither an answer nor an event nor a phase is recorded without anybody being shown
it. -/
theorem untouched_record (w : World) {effect : Effect} (unanswered : effect.answer? = none)
    (unpublished : effect.event? = none) (unshown : effect.phase? = none) :
    Untouched w (w.record effect) := by
  cases effect with
  | answer => cases unanswered
  | emit => cases unpublished
  | publish => cases unshown
  | write link payload =>
    simp only [record]
    split
    · rename_i peer hpeer
      exact w.untouched_callPeer _ _ hpeer (peer.held_write payload)
    · exact .refl w
  | close link =>
    simp only [record]
    split
    · rename_i peer hpeer
      exact w.untouched_callPeer _ _ hpeer peer.held_close
    · exact .refl w
  | _ => exact ⟨rfl, rfl, rfl, rfl, rfl, rfl, w.heldBefore_peers⟩

/-- How an observer reacts depends on the observers alone, and is never to give a command that is
answered. -/
theorem exists_reflex (w : World) (observer : ObserverId) (payload : Payload) :
    ∃ later command, command.bind Command.call? = none ∧
      ∀ v : World, v.observers = w.observers →
        v.reflexOf observer payload = ({ v with observers := later }, command) := by
  refine ⟨(w.reflexOf observer payload).1.observers, (w.reflexOf observer payload).2, ?_,
    fun v hobservers => ?_⟩
  · unfold reflexOf
    (repeat' split) <;> rfl
  · unfold reflexOf
    rw [hobservers]
    (repeat' split) <;> simp [← hobservers]

end World

end PersistentLink.Scenario
