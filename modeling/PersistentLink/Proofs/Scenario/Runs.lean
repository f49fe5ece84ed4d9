import PersistentLink.Proofs.Ensemble.Publication
import PersistentLink.Proofs.Scenario.Recording
import PersistentLink.Scenario.Play

/-!
# A world goes through runs

Whatever is done in a world, its parties get there by moves, and its handles and subscribers are
shown what these moves have led to. So what is true of all runs is true of a settled world, and of
the reports of a scenario. Unless the script holds something back, no task is pinned.

## Main definitions

- `World.Free`: nothing is held back
- `World.Display`: what handles and subscribers are shown
- `World.Trail`: moves that lead from one world to another one, and what came of them
- `World.Proceeds`: there are such moves, and all that came of them has been shown

## Main results

- `World.proceeds_perform`: a move is recorded, with the commands that observers give in reaction
- `World.proceeds_settle`, `World.proceeds_advance`: turns are moves
- `World.proceeds_apply`: so are the steps of a scenario
- `reports_of_play`: every report of a scenario tells of a run
-/

namespace PersistentLink

/-! ## The phase that was published last -/

namespace Effect

theorem phases_signs (clock : Nat) (effects : List Effect) :
    Sign.phases (signs clock effects) = phases effects := by
  rw [Sign.phases, signs, phases, seen, seen, List.filterMap_filterMap]
  refine List.filterMap_congr fun effect _ => ?_
  cases effect <;> rfl

end Effect

namespace Ensemble

variable {settings : Settings} {e last : Ensemble} {moves : List Move} {effects : List Effect}

theorem phases_signs_of_run (hrun : e.run moves = some (last, effects)) :
    Sign.phases (e.signs moves) = Effect.phases effects := by
  induction moves using List.reverseRecOn generalizing last effects with
  | nil =>
    obtain ⟨-, rfl⟩ := Prod.mk.inj (Option.some.inj hrun)
    rfl
  | append_singleton moves move ih =>
    obtain ⟨mid, first, later, hmoves, hmove, rfl⟩ := exists_of_run_concat hrun
    have hclosed : Sign.phases (mid.closedSign move).toList = [] := by
      rw [closedSign]
      cases (mid.inputOf move).bind Input.outcome? <;> rfl
    have hsigns : Sign.phases (mid.signsOf move) = Effect.phases later := by
      simp only [signsOf, hmove]
      rw [Sign.phases, List.filterMap_append, ← Sign.phases, hclosed]
      exact Effect.phases_signs mid.clock later
    rw [signs, along_concat signsOf hmoves move, Sign.phases, List.filterMap_append]
    exact (congrArg₂ (· ++ ·) (ih hmoves) hsigns).trans Effect.seen_append.symm

/-- The phase that was published last is the one in the books. -/
theorem getLastD_phases (hrun : (ofSettings settings).run moves = some (last, effects)) :
    (Effect.phases effects).getLastD .idle = last.manager.phase := by
  obtain ⟨since, hvisible⟩ := visible_of_run hrun
  rw [← phases_signs_of_run hrun]
  exact hvisible.passes.phase_eq.symm

end Ensemble

namespace Scenario

/-- Whether a call ends with a link whose reader is held back. -/
def Ending.holds : Ending → Bool
  | .link _ held => held.isSome
  | .webSocket _ | .failure _ => false

/-- Whether a reply holds something back. -/
def Reply.holds : Reply → Bool
  | .held _ => true
  | .now ending => ending.holds
  | .later | .panic => false

namespace World

open Ensemble

variable {settings : Settings} {w v u : World} {move : Move}
  {told effects : List Effect}

/-! ## Worlds in which nothing is held back -/

/-- Nothing is held back, and nothing will be. -/
def Free (w : World) : Prop :=
  (∀ reply ∈ w.script, reply.holds = false) ∧ w.otherwise.holds = false ∧
    ∀ (link : LinkId) (peer : Peer), w.peers[link]? = some peer → peer.held = none

/-- What handles and subscribers are shown. -/
structure Display where
  events : Broadcast LifecycleEvent
  phase : Phase

/-- What is shown after an effect. -/
def Display.after (display : Display) : Effect → Display
  | .emit event => { display with events := display.events.send event }
  | .publish phase => { display with phase }
  | _ => display

/-- What is shown in a world. -/
def display (w : World) : Display :=
  ⟨w.events, w.phase⟩

theorem getLastD_append {α : Type} (first later : List α) (start : α) :
    (first ++ later).getLastD start = later.getLastD (first.getLastD start) := by
  simp only [List.getLastD_eq_getLast?, List.getLast?_append, Option.getD_or]

theorem foldl_after (effects : List Effect) (display : Display) :
    effects.foldl .after display =
      ⟨(Effect.events effects).foldl .send display.events,
        (Effect.phases effects).getLastD display.phase⟩ := by
  induction effects generalizing display with
  | nil => rfl
  | cons effect rest ih =>
    rw [List.foldl_cons, ih]
    cases effect with
    | publish phase => exact congrArg _ (getLastD_append [phase] _ _).symm
    | _ => rfl

/-- Some effects are shown. The parties stay as they are, and nothing is held back that was not held
back before. -/
structure Shows (w : World) (effects : List Effect) (v : World) : Prop where
  ensemble_eq : v.ensemble = w.ensemble
  display_eq : v.display = effects.foldl .after w.display
  free : w.Free → v.Free

/-- Nothing is shown. -/
abbrev Silent (w v : World) : Prop :=
  Shows w [] v

theorem Silent.refl (w : World) : Silent w w :=
  ⟨rfl, rfl, fun free => free⟩

theorem Shows.trans {first later : List Effect} (hfirst : Shows w first v)
    (hlater : Shows v later u) : Shows w (first ++ later) u := by
  refine ⟨hlater.ensemble_eq.trans hfirst.ensemble_eq, ?_,
    fun free => hlater.free (hfirst.free free)⟩
  rw [hlater.display_eq, hfirst.display_eq, List.foldl_append]

theorem Silent.trans (hfirst : Silent w v) (hlater : Silent v u) : Silent w u :=
  Shows.trans hfirst hlater

/-- Nothing is shown where at most the far sides of links change. -/
theorem silent_of_peers (hensemble : v.ensemble = w.ensemble) (hdisplay : v.display = w.display)
    (hreplies : (v.script, v.otherwise) = (w.script, w.otherwise))
    (hpeers : w.Free → ∀ (link : LinkId) (peer : Peer), v.peers[link]? = some peer →
      w.peers[link]? = some peer ∨ peer.held = none) :
    Silent w v := by
  obtain ⟨hscript, hotherwise⟩ := Prod.mk.inj hreplies
  refine ⟨hensemble, hdisplay, fun free => ⟨?_, ?_, fun link peer hpeer => ?_⟩⟩
  · exact hscript ▸ free.1
  · exact hotherwise ▸ free.2.1
  · exact (hpeers free link peer hpeer).elim (free.2.2 link peer) id

theorem silent_setPeer (w : World) (link : LinkId) {peer : Peer}
    (free : w.Free → peer.held = none) :
    Silent w { w with peers := w.peers.setIfInBounds link peer } := by
  refine silent_of_peers rfl rfl rfl fun held other found hfound => ?_
  rw [Array.getElem?_setIfInBounds] at hfound
  split at hfound
  · split at hfound
    · exact .inr (Option.some.inj hfound ▸ free held)
    · cases hfound
  · exact .inl hfound

theorem silent_addPeer (w : World) {peer : Peer} (free : w.Free → peer.held = none) :
    Silent w (w.addPeer peer).2 := by
  refine silent_of_peers rfl rfl rfl fun held other found hfound => ?_
  simp only [addPeer, Array.getElem?_push] at hfound
  split at hfound
  · exact .inr (Option.some.inj hfound ▸ free held)
  · exact .inl hfound

theorem silent_of_eq (hensemble : v.ensemble = w.ensemble) (hdisplay : v.display = w.display)
    (hheld : (v.script, v.otherwise, v.peers) = (w.script, w.otherwise, w.peers)) :
    Silent w v := by
  simp only [Prod.mk.injEq] at hheld
  exact silent_of_peers hensemble hdisplay (Prod.ext hheld.1 hheld.2.1)
    fun _ _ _ hpeer => .inl (hheld.2.2 ▸ hpeer)

theorem silent_hangUp (w : World) : Silent w w.hangUp := by
  unfold hangUp
  split <;> exact silent_of_eq rfl rfl rfl

theorem Untouched.silent (h : Untouched w v) : Silent w v := by
  obtain ⟨hevents, hphase⟩ := Prod.mk.inj h.shown_eq
  refine silent_of_peers h.ensemble_eq ?_ h.replies_eq fun free link peer hpeer => ?_
  · rw [display, hevents, hphase, display]
  · obtain ⟨earlier, hearlier, hheld⟩ := h.held_before link peer hpeer
    exact .inr (hheld.trans (free.2.2 link earlier hearlier))

theorem Silent.shows (h : Silent w v) (hsame : effects.foldl .after w.display = w.display) :
    Shows w effects v :=
  ⟨h.ensemble_eq, h.display_eq.trans hsame.symm, h.free⟩

/-- An effect that is recorded is shown. -/
theorem shows_record (w : World) (effect : Effect) : Shows w [effect] (w.record effect) := by
  cases effect with
  | emit | publish | answer => exact ⟨rfl, rfl, fun free => free⟩
  | _ => exact Silent.shows (Untouched.silent (untouched_record w rfl rfl rfl)) rfl

theorem shows_records (w : World) (effects : List Effect) :
    Shows w effects (effects.foldl record w) := by
  induction effects generalizing w with
  | nil => exact Silent.refl w
  | cons effect rest ih => exact (shows_record w effect).trans (ih _)

/-! ## Trails -/

/-- Moves that lead from the parties of one world to those of another one. What came of them is
shown there, once the effects that are still to be told are. -/
structure Trail (w : World) (moves : List Move) (effects told : List Effect) (v : World) :
    Prop where
  run_eq : w.ensemble.run moves = some (v.ensemble, effects)
  display_eq : told.foldl .after v.display = effects.foldl .after w.display
  unpinned : w.Free → ∀ move ∈ moves, move.pins = false
  free : w.Free → v.Free

/-- One world has become another one by moves. -/
def Follows (w : World) (told : List Effect) (v : World) : Prop :=
  ∃ moves effects, Trail w moves effects told v

/-- One world has become another one by moves, and all that came of them is shown. -/
abbrev Proceeds (w v : World) : Prop :=
  Follows w [] v

theorem Trail.refl (w : World) : Trail w [] [] [] w :=
  ⟨rfl, rfl, fun _ _ => nofun, fun free => free⟩

theorem Proceeds.refl (w : World) : Proceeds w w :=
  ⟨[], [], .refl w⟩

theorem Trail.append {moves more : List Move} {others : List Effect}
    (hfirst : Trail w moves effects [] v) (hlater : Trail v more others told u) :
    Trail w (moves ++ more) (effects ++ others) told u := by
  refine ⟨run_append hfirst.run_eq hlater.run_eq, ?_, ?_,
    fun free => hlater.free (hfirst.free free)⟩
  · rw [hlater.display_eq, List.foldl_append, ← hfirst.display_eq]
    rfl
  · intro free move hmem
    exact (List.mem_append.mp hmem).elim (hfirst.unpinned free move)
      (hlater.unpinned (hfirst.free free) move)

theorem Follows.trans (hfirst : Proceeds w v) (hlater : Follows v told u) :
    Follows w told u := by
  obtain ⟨_, _, hmoves⟩ := hfirst
  obtain ⟨_, _, hmore⟩ := hlater
  exact ⟨_, _, hmoves.append hmore⟩

/-- The effects that were to be told first are shown. -/
theorem Follows.shows (h : Follows w (effects ++ told) v) (hshows : Shows v effects u) :
    Follows w told u := by
  obtain ⟨moves, all, htrail⟩ := h
  refine ⟨moves, all, ?_, ?_, htrail.unpinned, fun free => hshows.free (htrail.free free)⟩
  · rw [hshows.ensemble_eq]
    exact htrail.run_eq
  · rw [hshows.display_eq, ← List.foldl_append]
    exact htrail.display_eq

theorem Follows.silent (h : Follows w told v) (hsilent : Silent v u) : Follows w told u :=
  Follows.shows (show Follows w ([] ++ told) v from h) hsilent

theorem Follows.of_silent (h : Follows v told u) (hsilent : Silent w v) : Follows w told u :=
  Follows.trans ((Proceeds.refl w).silent hsilent) h

theorem Silent.proceeds (h : Silent w v) : Proceeds w v :=
  (Proceeds.refl w).silent h

/-- A move is made; what comes of it is to be told after what is to be told already. -/
theorem Follows.moved (h : Follows w told v) {next : Ensemble}
    (hmove : v.ensemble.move move = some (next, effects))
    (unpinned : w.Free → move.pins = false) :
    Follows w (told ++ effects) { v with ensemble := next } := by
  obtain ⟨moves, before, htrail⟩ := h
  refine ⟨moves ++ [move], before ++ effects, run_concat htrail.run_eq hmove, ?_, ?_,
    fun free => htrail.free free⟩
  · rw [List.foldl_append, List.foldl_append]
    exact congrArg (effects.foldl Display.after) htrail.display_eq
  · intro free other hmem
    obtain hmem | hmem := List.mem_append.mp hmem
    · exact htrail.unpinned free other hmem
    · exact List.mem_singleton.mp hmem ▸ unpinned free

/-- What comes of giving a command shows nothing, so it does not matter when it is told. -/
theorem foldl_after_submit {e next : Ensemble} {command : Command}
    (hmove : e.move (.submit command) = some (next, effects)) (display : Display) :
    effects.foldl .after display = display := by
  simp only [Ensemble.move] at hmove
  split at hmove
  · obtain ⟨-, rfl⟩ := Prod.mk.inj (Option.some.inj hmove)
    cases command <;> rfl
  · split at hmove <;> cases hmove
    rfl

theorem Follows.give (h : Follows w told v) (command : Command) :
    Follows w told (v.give command) := by
  unfold World.give
  split
  · rename_i next effects hmove
    obtain ⟨moves, all, htrail⟩ := h.moved hmove fun _ => rfl
    have hquiet := foldl_after_submit hmove
    have hshown := (shows_records { v with ensemble := next } effects).trans
      (untouched_alert _).silent
    refine Follows.shows ⟨moves, all, htrail.run_eq, ?_, htrail.unpinned, htrail.free⟩ hshown
    rw [← htrail.display_eq]
    simp only [List.foldl_append, List.append_nil, hquiet]
  · exact h

theorem Follows.follow {effect : Effect} (h : Follows w (effect :: told) v) :
    Follows w told (v.follow effect) := by
  have hrecorded : Follows w told (v.record effect) := h.shows (shows_record v effect)
  cases effect with
  | observe observer payload =>
    obtain ⟨later, command, -, hreflex⟩ :=
      exists_reflex (v.record (.observe observer payload)) observer payload
    have hlater : Follows w told { v.record (.observe observer payload) with observers := later } :=
      hrecorded.silent (silent_of_eq rfl rfl rfl)
    simp only [World.follow, hreflex _ rfl]
    cases command with
    | none => exact hlater
    | some command => exact hlater.give command
  | _ => exact hrecorded

theorem Follows.followed (h : Follows w effects v) : Proceeds w (effects.foldl World.follow v) := by
  induction effects generalizing v with
  | nil => exact h
  | cons effect rest ih => exact ih h.follow

/-! ## Moves of a world -/

/-- A move is recorded, and so are the commands that observers give in reaction. -/
theorem Follows.perform (h : Proceeds w v) (unpinned : w.Free → move.pins = false)
    (hperform : v.perform move = some u) : Proceeds w u := by
  obtain ⟨⟨next, effects⟩, hmove, rfl⟩ := Option.map_eq_some_iff.mp hperform
  have hmoved : Follows w effects { v with ensemble := next } := h.moved hmove unpinned
  exact hmoved.followed.silent ((silent_hangUp _).trans (untouched_alert _).silent)

theorem proceeds_perform (unpinned : w.Free → move.pins = false) (h : w.perform move = some v) :
    Proceeds w v :=
  (Proceeds.refl w).perform unpinned h

theorem proceeds_tryMove (w : World) (unpinned : w.Free → move.pins = false) :
    Proceeds w (w.tryMove move) := by
  unfold tryMove
  cases hperform : w.perform move with
  | none => exact .refl w
  | some v => exact proceeds_perform unpinned hperform

/-! ## Turns -/

theorem Free.outcomeOf (free : w.Free) (number : Nat) {ending : Ending}
    (hends : ending.holds = false) : (w.outcomeOf number ending).2.Free := by
  cases ending with
  | link behaviour held =>
    cases held with
    | none => exact (silent_addPeer w fun _ => rfl).free free
    | some event => cases hends
  | webSocket client => exact (silent_addPeer w fun _ => rfl).free free
  | failure error => exact free

theorem Follows.outcomeOf (h : Proceeds w v) (number : Nat) {ending : Ending}
    (hends : w.Free → ending.holds = false) : Proceeds w (v.outcomeOf number ending).2 := by
  obtain ⟨moves, effects, htrail⟩ := h
  refine ⟨moves, effects, ?_, ?_, htrail.unpinned,
    fun free => (htrail.free free).outcomeOf number (hends free)⟩
  · cases ending <;> exact htrail.run_eq
  · cases ending <;> exact htrail.display_eq

theorem proceeds_endOpen (w : World) (number : Nat) {ending : Ending}
    (hends : w.Free → ending.holds = false) : Proceeds w (w.endOpen number ending).2 := by
  have houtcome := (Proceeds.refl w).outcomeOf number hends
  simp only [endOpen]
  split
  · exact houtcome.trans ((proceeds_tryMove _ fun _ => rfl).silent (untouched_join _ _).silent)
  · exact houtcome

/-- A reply is taken from the script. In a world in which nothing is held back, it holds nothing. -/
theorem silent_nextReply (w : World) :
    Silent w w.nextReply.2 ∧ (w.Free → w.nextReply.1.holds = false) := by
  unfold nextReply
  split
  · exact ⟨Silent.refl w, fun free => free.2.1⟩
  · rename_i reply rest hscript
    have hforall (free : w.Free) : ∀ other ∈ reply :: rest, other.holds = false :=
      hscript ▸ free.1
    refine ⟨⟨rfl, rfl, fun free => ⟨fun other hmem => ?_, free.2⟩⟩, fun free => ?_⟩
    · exact hforall free other (List.mem_cons_of_mem _ hmem)
    · exact hforall free reply List.mem_cons_self

theorem proceeds_callOpen (h : w.callOpen = some v) : Proceeds w v := by
  obtain ⟨hreply, hholds⟩ := silent_nextReply w
  simp only [callOpen, Option.bind_eq_bind, Option.bind_eq_some_iff] at h
  obtain ⟨called, hcalled, h⟩ := h
  have hcall : Proceeds w called := by
    refine hreply.proceeds.perform (fun free => ?_) hcalled
    split
    · rename_i ending hheld
      rw [hheld] at hholds
      cases hholds free
    · rfl
  have hnoted : ∀ answered heldOpens trace,
      Proceeds w { called with answered, heldOpens, trace } :=
    fun _ _ _ => hcall.silent (silent_of_eq rfl rfl rfl)
  split at h
  · rename_i ending _ hnow
    refine ((hnoted _ _ _).outcomeOf _ fun free => ?_).perform (fun _ => rfl) h
    rw [hnow] at hholds
    exact hholds free
  · rename_i ending hheld _
    refine ((hnoted _ _ _).outcomeOf _ fun free => ?_).perform (fun _ => rfl) h
    rw [hheld] at hholds
    cases hholds free
  · exact (hnoted _ _ _).perform (fun _ => rfl) h
  · cases h
    exact (hnoted _ _ _).trans (proceeds_tryMove _ fun _ => rfl)
  · cases h
    exact (hnoted _ _ _).trans (proceeds_tryMove _ fun _ => rfl)

theorem proceeds_conclude (w : World) (attempt : Attempt) (number : Nat) :
    Proceeds w (w.conclude attempt number) := by
  unfold conclude
  split <;> exact proceeds_tryMove w fun _ => rfl

theorem proceeds_attemptTurn (w : World) (generation : Nat) :
    Proceeds w (w.attemptTurn generation) := by
  unfold attemptTurn
  split
  · exact .refl w
  · split
    · cases hcall : w.callOpen with
      | none => exact .refl w
      | some v => exact proceeds_callOpen hcall
    · exact proceeds_conclude w _ _

theorem proceeds_readOn (link : LinkId) (share : Nat) (w : World) :
    Proceeds w (readOn link share w) := by
  induction share generalizing w with
  | zero => exact Silent.proceeds (silent_of_eq rfl rfl rfl)
  | succ share ih =>
    unfold readOn
    split
    · exact .refl w
    · rename_i peer hpeer
      have hread : Proceeds w { w with
          peers := w.peers.setIfInBounds link peer.yield.2.2, log := w.log ++ peer.yield.2.1 } :=
        Silent.proceeds ((silent_setPeer w link fun free =>
          peer.held_yield.trans (free.2.2 link peer hpeer)).trans (silent_of_eq rfl rfl rfl))
      simp only
      split
      · exact hread
      · rename_i event _
        split
        · exact hread
        · rename_i after hperform
          have hpassed := hread.trans (proceeds_perform (fun _ => rfl) hperform)
          split
          · exact hpassed
          · exact hpassed.trans (ih after)

theorem proceeds_readerTurn (w : World) (link : LinkId) : Proceeds w (w.readerTurn link) := by
  unfold readerTurn
  split
  · split
    · exact proceeds_readOn link turnShare w
    · rename_i peer event hheld
      obtain ⟨found, hfound, hevent⟩ := Option.bind_eq_some_iff.mp hheld
      obtain ⟨_, hevent, hpair⟩ := Option.map_eq_some_iff.mp hevent
      split
      · refine proceeds_tryMove w fun free => ?_
        rw [free.2.2 link found hfound] at hevent
        cases hevent
      · exact (silent_setPeer w link fun _ => rfl).proceeds.trans (proceeds_tryMove _ fun _ => rfl)
  · exact .refl w

theorem proceeds_returnCall {result : Except Failure Unit} (h : w.returnCall result = some v) :
    Proceeds w v := by
  have hverdict : Proceeds w { w with verdict := none } :=
    Silent.proceeds (silent_of_eq rfl rfl rfl)
  unfold returnCall at h
  simp only at h
  split at h <;> exact hverdict.trans (proceeds_perform (fun _ => rfl) h)

theorem proceeds_goOn {cost : Nat} (h : w.goOn = some (cost, v)) : Proceeds w v := by
  unfold goOn at h
  split at h <;> obtain ⟨after, hafter, hpair⟩ := Option.map_eq_some_iff.mp h <;> cases hpair
  · exact proceeds_returnCall hafter
  · exact proceeds_returnCall hafter
  · exact (proceeds_perform (fun _ => rfl) hafter).of_silent (silent_of_eq rfl rfl rfl)
  · exact (proceeds_perform (fun _ => rfl) hafter).of_silent (silent_of_eq rfl rfl rfl)

theorem proceeds_managerTurn (moves share : Nat) (w : World) :
    Proceeds w (managerTurn moves share w) := by
  induction moves generalizing share w with
  | zero => exact .refl w
  | succ moves ih =>
    unfold managerTurn
    split
    · split
      · rename_i cost after hgoOn
        exact (proceeds_goOn hgoOn).trans (ih _ after)
      · exact .refl w
    · split
      · exact .refl w
      · split
        · exact Silent.proceeds (silent_of_eq rfl rfl rfl)
        · have hlook : Proceeds w w.lookInbox := Silent.proceeds (silent_of_eq rfl rfl rfl)
          simp only
          split
          · rename_i after hperform
            exact (hlook.trans (proceeds_perform (fun _ => rfl) hperform)).trans (ih _ after)
          · exact hlook.silent (silent_of_eq rfl rfl rfl)

theorem proceeds_turn (w : World) (budget : Nat) (party : Party) :
    Proceeds w (w.turn budget party) := by
  cases party with
  | attempt generation => exact proceeds_attemptTurn w generation
  | reader link => exact proceeds_readerTurn w link
  | manager => exact (proceeds_managerTurn budget turnShare w).silent (silent_of_eq rfl rfl rfl)

theorem proceeds_runLine (budget turns : Nat) (w : World) :
    Proceeds w (runLine budget turns w) := by
  induction turns generalizing w with
  | zero => exact .refl w
  | succ turns ih =>
    unfold runLine
    split
    · exact .refl w
    · rename_i party rest _
      have hturn := proceeds_turn { w with roster := { w.roster with line := rest } } budget party
      exact (hturn.trans (ih _)).of_silent (silent_of_eq rfl rfl rfl)

theorem proceeds_takeTurns (budget rounds : Nat) (w : World) :
    Proceeds w (takeTurns budget rounds w) := by
  induction rounds generalizing w with
  | zero => exact .refl w
  | succ rounds ih =>
    unfold takeTurns
    have hline := proceeds_runLine budget budget w
    simp only
    split
    · exact hline
    · exact hline.trans ((ih _).of_silent (silent_of_eq rfl rfl rfl))

/-- Whatever happens until nothing can proceed, it is moves. -/
theorem proceeds_settle (w : World) : Proceeds w w.settle :=
  proceeds_takeTurns _ _ w

theorem silent_ring (w : World) : Silent w w.ring := by
  have hjoined : ∀ (due : List Attempt) (v : World),
      Silent v (due.foldl (fun v attempt => v.join (.attempt attempt.generation)) v) := by
    intro due
    induction due with
    | nil => exact Silent.refl
    | cons attempt rest ih => exact fun v => (untouched_join v _).silent.trans (ih _)
  unfold ring
  simp only
  split
  · exact (hjoined _ w).trans (untouched_join _ _).silent
  · exact hjoined _ w

/-- So is what happens while time passes. -/
theorem proceeds_advance (w : World) (span : Nat) : Proceeds w (w.advance span) := by
  have helapse : Proceeds w (w.tryMove (.elapse span)) := proceeds_tryMove w fun _ => rfl
  have hline := helapse.trans (proceeds_runLine (w.tryMove (.elapse span)).budget
    (w.tryMove (.elapse span)).budget _)
  unfold advance
  exact (hline.silent (silent_ring _)).silent (silent_of_eq rfl rfl rfl)

/-! ## Steps of a scenario -/

theorem proceeds_give (w : World) (command : Command) : Proceeds w (w.give command) :=
  (Proceeds.refl w).give command

theorem proceeds_issue (w : World) (kind : CallKind) : Proceeds w (w.issue kind) := by
  have hgiven (command : Command) :
      Proceeds w ({ w with calls := w.calls.push { kind } }.give command) :=
    (proceeds_give _ command).of_silent (silent_of_eq rfl rfl rfl)
  exact (hgiven _).silent (silent_of_eq rfl rfl rfl)

theorem proceeds_detachIfUnheld (w : World) : Proceeds w w.detachIfUnheld := by
  unfold detachIfUnheld
  split
  · exact .refl w
  · exact proceeds_tryMove w fun _ => rfl

theorem proceeds_acknowledge (w : World) : Proceeds w w.acknowledge :=
  (proceeds_detachIfUnheld _).of_silent (silent_of_eq rfl rfl rfl)

theorem silent_receive (w : World) (subscriber : Nat) : Silent w (w.receive subscriber).2 := by
  unfold receive
  split <;> exact silent_of_eq rfl rfl rfl

theorem proceeds_cancel (w : World) (call : CallId) : Proceeds w (w.cancel call).2 := by
  unfold cancel
  split
  · exact (proceeds_detachIfUnheld _).of_silent (silent_of_eq rfl rfl rfl)
  · exact .refl w

theorem proceeds_answerStep (w : World) (number : Option Nat) {ending : Ending} (noted : Bool)
    (free : ending.holds = false) : Proceeds w (w.answerStep number ending noted).2 := by
  unfold answerStep
  split
  · exact .refl w
  · exact (proceeds_endOpen _ _ fun _ => free).of_silent (silent_of_eq rfl rfl rfl)

theorem silent_stir (w : World) (link : LinkId) : Silent w (w.stir link) := by
  unfold stir
  split
  · exact (untouched_join w _).silent
  · exact Silent.refl w

theorem silent_byPeer (w : World) (number : Option Nat) {act : Peer → Option Peer}
    {rest : World → LinkId → World}
    (kept : ∀ peer after, act peer = some after → after.held = peer.held)
    (hrest : ∀ w link, Silent w (rest w link)) : Silent w (w.byPeer number act rest).2 := by
  unfold byPeer
  split
  · exact Silent.refl w
  · rename_i link _
    split
    · exact Silent.refl w
    · rename_i after hafter
      obtain ⟨peer, hpeer, hact⟩ := Option.bind_eq_some_iff.mp hafter
      refine (silent_setPeer w link fun free => ?_).trans (hrest _ link)
      exact (kept peer after hact).trans (free.2.2 link peer hpeer)

theorem silent_release (w : World) (number : Option Nat) (ok : Bool) :
    Silent w (w.release number ok).2 := by
  unfold release
  split
  · exact Silent.refl w
  · rename_i link _
    split
    · exact Silent.refl w
    · rename_i peer hpeer
      split
      · have hopened : Silent w
            { w with peers := w.peers.setIfInBounds link { peer with gate := false } } :=
          silent_setPeer w link fun free => free.2.2 link peer hpeer
        simp only
        split
        · exact hopened.trans (silent_of_eq rfl rfl rfl)
        · exact hopened
      · exact Silent.refl w

theorem held_sendEvents {events : List LinkEvent} {peer after : Peer}
    (h : sendEvents events peer = some after) : after.held = peer.held := by
  unfold sendEvents at h
  split at h <;> cases h
  rfl

theorem held_vanish {peer after : Peer} (h : vanish peer = some after) :
    after.held = peer.held := by
  unfold vanish at h
  split at h <;> cases h
  rfl

theorem proceeds_through (w : World) (handle : Nat) {act : Unit → Outcome}
    (hact : Proceeds w (act ()).2) : Proceeds w (w.through handle act).2 := by
  unfold through
  split
  · exact hact
  · exact .refl w

theorem proceeds_sends (w : World) (payloads : List Payload) :
    Proceeds w (payloads.foldl (fun w payload => w.give (.send payload)) w) := by
  induction payloads generalizing w with
  | nil => exact .refl w
  | cons payload rest ih => exact (proceeds_give w _).trans (ih _)

mutual

/-- What a step of a scenario leads to, it leads to by moves. -/
theorem proceeds_apply (w : World) (step : Step) : Proceeds w (w.apply step).2 := by
  cases step with
  | connect handle | close handle =>
    exact proceeds_through w handle (proceeds_issue w _)
  | cancel call => exact proceeds_cancel w call
  | send handle payloads => exact proceeds_through w handle (proceeds_sends w payloads)
  | observe handle observer =>
    exact proceeds_through w handle ((proceeds_give _ _).of_silent (silent_of_eq rfl rfl rfl))
  | clone handle =>
    exact proceeds_through w handle (Silent.proceeds (silent_of_eq rfl rfl rfl))
  | drop handle =>
    exact proceeds_through w handle
      ((proceeds_detachIfUnheld _).of_silent (silent_of_eq rfl rfl rfl))
  | endpoint handle => exact proceeds_through w handle (.refl w)
  | subscribe handle =>
    exact proceeds_through w handle (Silent.proceeds (silent_of_eq rfl rfl rfl))
  | receive subscriber =>
    simp only [apply]
    split
    · exact (silent_receive w subscriber).proceeds
    · exact .refl w
  | accept number behaviour => exact proceeds_answerStep w number _ rfl
  | reject number error => exact proceeds_answerStep w number _ rfl
  | dropOpen number => exact proceeds_answerStep w number _ rfl
  | push peer payloads =>
    exact (silent_byPeer w peer (fun _ _ => held_sendEvents) silent_stir).proceeds
  | peerClose peer status =>
    exact (silent_byPeer w peer (fun _ _ => held_sendEvents) silent_stir).proceeds
  | peerDrop peer => exact (silent_byPeer w peer (fun _ _ => held_vanish) silent_stir).proceeds
  | adjust peer change =>
    refine (silent_byPeer w peer (fun _ _ hact => ?_) fun w _ => Silent.refl w).proceeds
    cases hact
    rfl
  | release peer ok => exact (silent_release w peer ok).proceeds
  | advance span => exact proceeds_advance w span
  | nothing => exact .refl w
  | batch steps => exact proceeds_applyAll w steps
  | unreadable subject complaint =>
    simp only [apply]
    split <;> exact .refl w

theorem proceeds_applyAll (w : World) (steps : List Step) : Proceeds w (w.applyAll steps).2 := by
  cases steps with
  | nil => exact .refl w
  | cons step rest => exact (proceeds_apply w step).trans (proceeds_applyAll _ rest)

end

/-! ## Reports -/

theorem proceeds_askBooks (w : World) : Proceeds w w.askBooks.2 := by
  unfold askBooks
  split
  · exact .refl w
  · split
    · exact .refl w
    · have hgiven : Proceeds w
          ({ w with queries := w.queries + 1 }.give (.snapshot w.queries)) :=
        (proceeds_give _ _).of_silent (silent_of_eq rfl rfl rfl)
      have hasked := hgiven.trans (proceeds_settle _)
      simp only
      split <;> exact hasked

theorem proceeds_report (w : World) (notes : List Note) : Proceeds w (w.report notes).2 := by
  have hasked := (proceeds_askBooks w).trans (proceeds_acknowledge w.askBooks.2)
  unfold report
  exact (hasked.silent (silent_receive _ 0)).silent (silent_of_eq rfl rfl rfl)

/-- A report says what is shown in the world after it. -/
theorem report_shows (w : World) (notes : List Note) :
    (w.report notes).1.phase = (w.report notes).2.phase ∧
      (w.report notes).1.events.filterMap Received.item? <:+ (w.report notes).2.events.kept := by
  simp only [report, receive, true_and]
  split
  · exact List.nil_suffix
  · exact Broadcast.items_receive_suffix _ _ _

theorem step_eq (w : World) (step : Step) :
    w.step step = (w.apply step).2.settle.report (w.apply step).1 := by
  simp only [World.step]

theorem steps_cons (w : World) (step : Step) (rest : List Step) :
    w.steps (step :: rest) = (w.step step).1 :: (w.step step).2.steps rest := by
  simp only [steps]

theorem play_eq (w : World) (steps : List Step) :
    play w steps = ((w.settle.report []).1, (w.settle.report []).2.steps steps) := by
  simp only [play]

theorem proceeds_step (w : World) (step : Step) : Proceeds w (w.step step).2 := by
  rw [step_eq]
  exact ((proceeds_apply w step).trans (proceeds_settle _)).trans (proceeds_report _ _)

end World

/-- A report tells of a run: it shows the phase that the manager is in after it, and the events that
came last in it. -/
def Report.TellsOf (report : Report) (settings : Settings) (moves : List Move) : Prop :=
  ∃ last effects, (Ensemble.ofSettings settings).run moves = some (last, effects) ∧
    report.phase = last.manager.phase ∧
    report.events.filterMap Received.item? <:+ Effect.events effects

namespace World

variable {settings : Settings} {replies : List Reply} {w : World} {moves : List Move}
  {effects : List Effect}

theorem Trail.tellsOf {notes : List Note}
    (h : Trail (start settings replies) moves effects [] (w.report notes).2) :
    (w.report notes).1.TellsOf settings moves := by
  obtain ⟨hphase, hevents⟩ := report_shows w notes
  have hdisplay := h.display_eq
  rw [foldl_after effects] at hdisplay
  obtain ⟨hsent, hpublished⟩ := Display.mk.inj hdisplay
  refine ⟨(w.report notes).2.ensemble, effects, h.run_eq, ?_, ?_⟩
  · exact hphase.trans (hpublished.trans (Ensemble.getLastD_phases h.run_eq))
  · have hkept : ((Effect.events effects).foldl .send (start settings replies).events).kept <:+
        [] ++ Effect.events effects :=
      Broadcast.kept_suffix_of_send (List.suffix_refl []) _
    rw [show (w.report notes).2.events = _ from hsent] at hevents
    exact hevents.trans hkept

theorem free_start (settings : Settings) (holdless : ∀ reply ∈ replies, reply.holds = false) :
    (start settings replies).Free :=
  ⟨holdless, rfl, fun _ _ => nofun⟩

/-- From a world that a run has led to, the steps of a scenario make longer and longer runs, and
each report tells of one of them. -/
theorem reports_of_steps (h : Trail (start settings replies) moves effects [] w)
    (steps : List Step) :
    ∃ runs : List (List Move), List.Forall₂ (·.TellsOf settings ·) (w.steps steps) runs ∧
      List.IsChain (· <+: ·) (moves :: runs) ∧
      ((∀ reply ∈ replies, reply.holds = false) →
        ∀ run ∈ runs, ∀ move ∈ run, move.pins = false) := by
  induction steps generalizing w moves effects with
  | nil => exact ⟨[], .nil, .singleton _, fun _ => nofun⟩
  | cons step rest ih =>
    obtain ⟨more, others, hmore⟩ := proceeds_step w step
    have hnext := h.append hmore
    have htells : (w.step step).1.TellsOf settings (moves ++ more) := by
      rw [step_eq] at hnext ⊢
      exact hnext.tellsOf
    obtain ⟨runs, htold, hchain, hunpinned⟩ := ih hnext
    rw [steps_cons]
    refine ⟨(moves ++ more) :: runs, .cons htells htold,
      .cons_cons (List.prefix_append _ _) hchain, fun holdless => ?_⟩
    exact List.forall_mem_cons.mpr
      ⟨hnext.unpinned (free_start settings holdless), hunpinned holdless⟩

/-- The same with the report before the first step. -/
theorem reports_of_trail (h : Trail (start settings replies) moves effects [] w)
    (steps : List Step) :
    ∃ (first : List Move) (runs : List (List Move)),
      (play w steps).1.TellsOf settings first ∧
      List.Forall₂ (·.TellsOf settings ·) (play w steps).2 runs ∧
      List.IsChain (· <+: ·) (first :: runs) ∧
      ((∀ reply ∈ replies, reply.holds = false) →
        ∀ run ∈ first :: runs, ∀ move ∈ run, move.pins = false) := by
  obtain ⟨more, others, hmore⟩ := (proceeds_settle w).trans (proceeds_report w.settle [])
  have hfirst := h.append hmore
  obtain ⟨runs, htold, hchain, hunpinned⟩ := reports_of_steps hfirst steps
  rw [play_eq]
  refine ⟨moves ++ more, runs, hfirst.tellsOf, htold, hchain, fun holdless => ?_⟩
  exact List.forall_mem_cons.mpr
    ⟨hfirst.unpinned (free_start settings holdless), hunpinned holdless⟩

end World

/-- The reports of a scenario tell of longer and longer runs, in which no task is pinned unless the
script holds something back. -/
theorem reports_of_play (settings : Settings) (replies : List Reply) (steps : List Step) :
    ∃ (first : List Move) (runs : List (List Move)),
      (play (.start settings replies) steps).1.TellsOf settings first ∧
      List.Forall₂ (·.TellsOf settings ·) (play (.start settings replies) steps).2 runs ∧
      List.IsChain (· <+: ·) (first :: runs) ∧
      ((∀ reply ∈ replies, reply.holds = false) →
        ∀ run ∈ first :: runs, ∀ move ∈ run, move.pins = false) :=
  World.reports_of_trail (.refl _) steps

end Scenario

end PersistentLink
