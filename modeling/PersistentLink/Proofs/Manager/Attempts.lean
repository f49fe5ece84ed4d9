import PersistentLink.Proofs.Manager.Retry

/-!
# Steps in the course of an attempt

An attempt is announced when its task is started, and the callers who wait by then have just asked
for it or were carried over from the attempt before. As long as it goes on, its task is neither
given up nor started again. It is over when the manager handles its report, which is what its
failure is announced with, and what may have it made again.

## Main results

- `Manager.Turn.exists_of_start`, `Manager.Turn.waits_at_start`: how an attempt starts
- `Manager.Turn.of_ongoing`, `Manager.Turn.ready_of_connecting`: what is not done while it goes on
- `Manager.Turn.over_of_report`, `Manager.Turn.of_connectFailed`: how it ends
- `Manager.Sound.retry_iff`: when it is made again
-/

namespace PersistentLink.Manager

open Effect

variable {m : Manager} {input : Input} {reaction : Reaction} {generation : Nat}

/-- A task is started last, right after the attempt is announced. -/
theorem Turn.exists_of_start (turn : Turn m input reaction) (hsound : m.Sound)
    (h : .startAttempt generation ∈ reaction.2) :
    ∃ before trigger, reaction.2 =
      before ++ [.emit (.connecting generation trigger), .startAttempt generation] := by
  rw [← mem_attempts] at h
  have hstarts (books : Manager) (trigger : Trigger) (earlier : List Effect)
      (heq : generation = books.generation + 1) : ∃ before trigger',
        ((books.beginAttempt trigger).after earlier).2 = before ++
          [.emit (.connecting generation trigger'), .startAttempt generation] := by
    refine ⟨earlier ++ (transition books.phase .connecting ++
      [.log (.opening generation books.url trigger)]), trigger, ?_⟩
    simp [beginAttempt, heq]
  cases turn with
  | called | summoned | failedRetrying =>
    exact hstarts _ _ _ (by simpa [attempt?] using h)
  | dismissed order => cases order <;> simp [attempt?, attempts_resume, apply_ite] at h
  | released generation rest outcome busy =>
    cases rest with
    | attempt trigger => exact absurd busy (hsound.not_closing_for_attempt _ _)
    | _ => simp [attempt?, attempts_resume] at h
  | _ => simp [attempt?] at h

/-- Who waits when an attempt starts has just asked for it, or has joined the attempt before and is
carried over for the first time. -/
theorem Turn.waits_at_start (turn : Turn m input reaction) (hsound : m.Sound)
    (h : .startAttempt generation ∈ reaction.2) {waiter : Waiter}
    (hmem : waiter ∈ reaction.1.waiters) :
    m.heard input = some (.connect waiter.call) ∧ waiter.retried = false ∨
      waiter.retried = true ∧ m.phase = .connecting ∧
        ∃ earlier ∈ m.waiters, earlier.call = waiter.call ∧ earlier.retried = false := by
  rw [← mem_attempts] at h
  cases turn with
  | called call ready =>
    obtain rfl : waiter = .initiator call := by simpa [beginAttempt] using hmem
    exact .inl ⟨m.heard_eq_some.mpr ⟨ready, rfl⟩, rfl⟩
  | summoned payload ready free =>
    -- nobody waits while no attempt is in flight
    have hwaiters := (hsound.settled ready).waiters_eq (mayStartAttempt_iff.mp free).2
    simp [beginAttempt, hwaiters] at hmem
  | failedRetrying error ready connecting =>
    obtain ⟨earlier, hearlier, rfl⟩ := List.mem_map.mp hmem
    obtain ⟨hwaits, hcarried⟩ := List.mem_filter.mp hearlier
    have hfirst : earlier.retried = false := by
      simp only [Waiter.isCarriedOver, Bool.and_eq_true, Bool.not_eq_true'] at hcarried
      exact hcarried.2
    exact .inr ⟨rfl, connecting, earlier, hwaits, rfl, hfirst⟩
  | dismissed order => cases order <;> simp [attempt?, attempts_resume, apply_ite] at h
  | released generation rest outcome busy =>
    cases rest with
    | attempt trigger => exact absurd busy (hsound.not_closing_for_attempt _ _)
    | _ => simp [attempt?, attempts_resume] at h
  | _ => simp [attempt?] at h

/-- As long as an attempt goes on, its task is not given up, and no attempt is announced. -/
theorem Turn.of_ongoing (turn : Turn m input reaction) (hsound : m.Sound)
    (connecting : reaction.1.phase = .connecting)
    (hsame : reaction.1.generation = m.generation) :
    .abandonAttempt ∉ reaction.2 ∧
      ∀ generation trigger, .emit (.connecting generation trigger) ∉ reaction.2 := by
  cases turn with
  | called | summoned | failedRetrying => simp [beginAttempt] at hsame
  | joined | queued | registered | reported | staleSuccess | staleFailure | alreadyDown | staleEvent
      | wrote | writeLost | ignored => simp
  | received payload panicking =>
    refine ⟨fun hmem => ?_, fun generation trigger hmem => ?_⟩ <;>
      obtain ⟨observer, hshown⟩ | ⟨record, hlogged, -⟩ := m.mem_dispatch hmem <;>
      simp_all
  | welcomed _ _ live | handedOver _ _ _ live | dismissing _ _ _ live | peerClosed _ _ _ _ live =>
    exact absurd (live.symm.trans connecting) (by decide)
  | drained _ _ busy | drainedOne _ _ _ _ _ busy | drainLost _ _ _ _ busy =>
    have live := (hsound.linked busy).phase_eq
    exact absurd (live.symm.trans connecting) (by decide)
  | opened | openedDraining | failed => simp at connecting
  | dismissed order => cases order <;> simp [resume, settleReset] at connecting
  | released generation rest outcome busy =>
    cases rest with
    | nothing => simp [resume]
    | attempt => simp [resume, beginAttempt] at hsame
    | _ => simp [resume, settleLost, settleClosed, settleReset] at connecting

/-- Nothing is under way while the manager waits for an attempt, if it is told of no earlier one. -/
theorem Turn.ready_of_connecting (turn : Turn m input reaction) (hsound : m.Sound)
    (earlier : m.phase = .connecting → m.activity = .ready)
    (fresh : ∀ generation result, input = .attemptFinished generation result →
      generation = m.generation ∧ m.phase = .connecting)
    (connecting : reaction.1.phase = .connecting) : reaction.1.activity = .ready := by
  cases turn with
  | called | summoned | failedRetrying => simp [beginAttempt]
  | staleSuccess generation _ _ stale => exact absurd (fresh generation _ rfl) stale
  | joined | queued | registered | received | reported | staleFailure | alreadyDown | staleEvent
      | ignored => exact earlier connecting
  | welcomed _ _ live | handedOver _ _ _ live | dismissing _ _ _ live | peerClosed _ _ _ _ live =>
    exact absurd (live.symm.trans connecting) (by decide)
  | wrote _ busy | writeLost _ _ _ busy | drained _ _ busy | drainedOne _ _ _ _ _ busy
      | drainLost _ _ _ _ busy => exact absurd ((earlier connecting).symm.trans busy) (by simp)
  | opened | openedDraining | failed => simp at connecting
  | dismissed order => cases order <;> simp [resume, settleReset] at connecting
  | released generation rest outcome busy =>
    cases rest with
    | nothing => exact absurd ((earlier connecting).symm.trans busy) (by simp)
    | attempt trigger => exact absurd busy (hsound.not_closing_for_attempt _ _)
    | _ => simp [resume, settleLost, settleClosed, settleReset] at connecting

/-- An attempt is over once its report has been handled. -/
theorem Turn.over_of_report {result : Except Failure LinkId}
    (turn : Turn m (.attemptFinished m.generation result) reaction)
    (ready : m.activity = .ready) (connecting : m.phase = .connecting) :
    reaction.1.generation = m.generation → reaction.1.phase ≠ .connecting := by
  cases turn with
  | dismissing order | dismissed order => cases order
  | staleSuccess _ _ _ stale | staleFailure _ _ _ stale => exact absurd ⟨rfl, connecting⟩ stale
  | opened | openedDraining | failed => simp
  | failedRetrying => simp [beginAttempt]
  | ignored _ stray => simp [fits, ready] at stray

/-- What is announced of a failed attempt is what it reports. -/
theorem Turn.of_connectFailed (turn : Turn m input reaction) {trigger : Trigger} {reason : String}
    (h : .emit (.connectFailed generation trigger reason) ∈ reaction.2) :
    ∃ error, input = .attemptFinished generation (.error error) ∧ reason = error.message := by
  rw [← mem_events] at h
  cases turn with
  | failed error | failedRetrying error =>
    obtain ⟨rfl, -, rfl⟩ : generation = m.generation ∧ trigger = m.trigger ∧
        reason = error.message := by simpa [event?] using h
    exact ⟨error, rfl, rfl⟩
  | dismissed order => cases order <;> simp [event?, events_resume, apply_ite] at h
  | released _ rest => cases rest <;> simp [event?, events_resume] at h
  | _ => simp [event?] at h

/-- An attempt is announced as made again only by the failure of the one in flight. -/
theorem Turn.fails_of_retry (turn : Turn m input reaction) (hsound : m.Sound)
    (h : .emit (.connecting generation .retry) ∈ reaction.2) : ∃ cause, m.Fails input cause := by
  rw [← mem_events] at h
  cases turn with
  | failedRetrying cause ready connecting => exact ⟨cause, ready, connecting, rfl⟩
  | dismissed order => cases order <;> simp [event?, events_resume, apply_ite] at h
  | released _ rest _ busy =>
    cases rest with
    | attempt => exact absurd busy (hsound.not_closing_for_attempt _ _)
    | _ => simp [event?, events_resume] at h
  | _ => simp [event?] at h

/-- An attempt is made again when the one in flight fails, exactly if somebody waits on. -/
theorem Sound.retry_iff (h : m.Sound) (input : Input) :
    (∃ generation, .emit (.connecting generation .retry) ∈ (m.step input).2) ↔
      (∃ cause, m.Fails input cause) ∧ (m.step input).1.waiting ≠ [] := by
  have hwaiting {cause : Failure} (hfails : m.Fails input cause) :
      (m.step input).1.waiting = [] ↔ m.carriedOver = [] := by
    rw [waiting, (h.step_of_fails hfails).waiters_eq, List.map_eq_nil_iff]
  constructor
  · rintro ⟨generation, hretry⟩
    obtain ⟨cause, hfails⟩ := (h.turn input).fails_of_retry h hretry
    refine ⟨⟨cause, hfails⟩, fun nobody => ?_⟩
    rw [← mem_events, (h.step_of_fails hfails).events_eq, (hwaiting hfails).mp nobody] at hretry
    simp at hretry
  · rintro ⟨⟨cause, hfails⟩, somebody⟩
    refine ⟨m.generation + 1, ?_⟩
    have carried := mt (hwaiting hfails).mpr somebody
    rw [← mem_events, (h.step_of_fails hfails).events_eq, if_neg carried]
    simp

end PersistentLink.Manager
