import PersistentLink.Proofs.Manager.Books

/-!
# Generations

Attempts and resets are counted by the generation, which never falls. The attempt of a generation
is undecided from its start until its link is announced or it is given up, and from then on it is
decided for good.

## Main definitions

- `Manager.Undecided`: the present attempt may still open the connection
- `Manager.Decided`: the attempt of a generation will not open the connection any more

## Main results

- `Manager.Sound.generation_le_run`: the generation never falls
- `Manager.Sound.le_generation_of_started`: tasks are started under the present generation
- `Manager.Sound.not_opened_of_decided`: a decided attempt opens nothing
- `Manager.Sound.decided_of_opened`: an attempt whose link has been announced is decided
-/

namespace PersistentLink.Manager

open Effect

/-- The present attempt may still open the connection. -/
def Undecided (m : Manager) : Prop :=
  m.phase = .connecting ∨ ∃ payload flushed, m.activity = .draining payload flushed

/-- The attempt of a generation will not open the connection any more. -/
def Decided (m : Manager) (generation : Nat) : Prop :=
  generation < m.generation ∨ generation = m.generation ∧ ¬m.Undecided

variable {m : Manager} {input : Input}

/-! ## One step -/

/-- A step keeps the generation or goes on to a later one. An attempt is undecided from its start
until the link is announced or given up. -/
theorem Turn.undecided {reaction : Reaction} (turn : Turn m input reaction) :
    m.generation < reaction.1.generation ∨
      m.generation = reaction.1.generation ∧ (reaction.1.Undecided → m.Undecided) := by
  cases turn with
  | dismissed order => cases order <;> simp [resume, settleReset]
  | released generation rest outcome busy =>
    cases rest <;>
      simp [resume, settleReset, settleLost, settleClosed, beginAttempt, Undecided, busy]
  | _ => simp_all [beginAttempt, Undecided]

/-- A link is announced for the present attempt, which is decided by that. -/
theorem Turn.decided_of_opened {reaction : Reaction} (turn : Turn m input reaction)
    (hsound : m.Sound) {generation flushed : Nat}
    (h : .opened generation flushed ∈ events reaction.2) :
    generation = m.generation ∧ m.Undecided ∧ reaction.1.Decided generation := by
  cases turn with
  | opened _ ready connecting =>
    obtain ⟨rfl, rfl⟩ : generation = m.generation ∧ flushed = 0 := by simpa [event?] using h
    simp [Undecided, Decided, connecting, ready]
  | drained _ done busy =>
    have live := (hsound.linked busy).phase_eq
    obtain ⟨rfl, rfl⟩ : generation = m.generation ∧ flushed = done + 1 := by
      simpa [event?] using h
    simp [Undecided, Decided, busy, live]
  | dismissed order => cases order <;> simp [event?, events_resume, apply_ite] at h
  | released _ rest => cases rest <;> simp [event?, events_resume] at h
  | _ => simp [event?] at h

/-- A step starts one attempt at most, under a generation of its own. -/
theorem Turn.attempts_eq {reaction : Reaction} (turn : Turn m input reaction) :
    attempts reaction.2 = [] ∨
      attempts reaction.2 = [m.generation + 1] ∧ reaction.1.generation = m.generation + 1 ∧
        reaction.1.phase = .connecting ∧ reaction.1.activity = .ready := by
  cases turn with
  | called | summoned | failedRetrying => exact .inr ⟨by simp [attempt?], rfl, rfl, rfl⟩
  | dismissed order => cases order <;> simp [attempt?, attempts_resume, apply_ite]
  | released _ rest =>
    cases rest with
    | attempt trigger => exact .inr ⟨by simp [attempt?, attempts_resume], rfl, rfl, rfl⟩
    | _ => simp [attempt?, attempts_resume]
  | _ => simp [attempt?]

theorem Turn.generation_of_attempt {reaction : Reaction} (turn : Turn m input reaction)
    {generation : Nat} (h : generation ∈ attempts reaction.2) :
    reaction.1.generation = generation := by
  obtain hnone | ⟨hone, hgeneration, -⟩ := turn.attempts_eq
  · simp [hnone] at h
  · rw [hone, List.mem_singleton] at h
    rw [hgeneration, h]

/-- The reader of a link starts under the generation of the attempt that opened the link. -/
theorem Turn.generation_of_reader {reaction : Reaction} (turn : Turn m input reaction)
    {generation : Nat} (h : generation ∈ readers reaction.2) :
    generation = m.generation ∧ reaction.1.generation = generation := by
  cases turn with
  | opened | openedDraining =>
    obtain rfl : generation = m.generation := by simpa [reader?] using h
    exact ⟨rfl, rfl⟩
  | dismissed order => cases order <;> simp [reader?, apply_ite] at h
  | _ => simp [reader?] at h

/-- Within a generation an attempt is in flight until its end is handled. -/
theorem Turn.connecting_or_finished {reaction : Reaction} (turn : Turn m input reaction)
    (hsound : m.Sound) (connecting : m.phase = .connecting)
    (hsame : reaction.1.generation = m.generation) :
    reaction.1.phase = .connecting ∨ ∃ result, input = .attemptFinished m.generation result := by
  cases turn with
  | opened | openedDraining | failed => exact .inr ⟨_, rfl⟩
  | dismissed order => cases order <;> simp [resume, settleReset] at hsame
  | released generation rest outcome busy =>
    cases rest with
    | nothing => exact .inl connecting
    | _ =>
      -- the writer of a link that was given up is closed while the connection is live
      simp only [Sound, busy] at hsound
      exact absurd (hsound.2.phase_eq.symm.trans connecting) (by decide)
  | _ => simp_all [beginAttempt]

theorem Turn.decided {reaction : Reaction} (turn : Turn m input reaction) {generation : Nat}
    (h : m.Decided generation) : reaction.1.Decided generation := by
  obtain hlater | ⟨hsame, hundecided⟩ := turn.undecided
  · obtain hlt | ⟨rfl, -⟩ := h
    · exact .inl (Nat.lt_trans hlt hlater)
    · exact .inl hlater
  · obtain hlt | ⟨rfl, hdecided⟩ := h
    · exact .inl (hsame ▸ hlt)
    · exact .inr ⟨hsame, fun hnext => hdecided (hundecided hnext)⟩

/-! ## Runs -/

theorem Sound.generation_le_run (h : m.Sound) (inputs : List Input) :
    m.generation ≤ (m.run inputs).1.generation := by
  induction inputs using List.reverseRecOn with
  | nil => exact Nat.le_refl _
  | append_singleton inputs input ih =>
    rw [run_concat_fst]
    obtain hlater | ⟨hsame, -⟩ := ((h.run inputs).turn input).undecided
    · exact Nat.le_of_lt (Nat.lt_of_le_of_lt ih hlater)
    · exact hsame ▸ ih

/-- What was started in a run was started under the present generation or an earlier one. -/
theorem Sound.le_generation_of_started (h : m.Sound) {inputs : List Input} {generation : Nat}
    (hmem : generation ∈ attempts (m.run inputs).2 ∨ generation ∈ readers (m.run inputs).2) :
    generation ≤ (m.run inputs).1.generation := by
  induction inputs using List.reverseRecOn with
  | nil => simp at hmem
  | append_singleton inputs input ih =>
    have hturn := (h.run inputs).turn input
    have hle := (h.run inputs).generation_le_run [input]
    rw [run_singleton] at hle
    rw [run_concat_snd, attempts, readers, seen_append, seen_append, List.mem_append,
      List.mem_append] at hmem
    rw [run_concat_fst]
    obtain (hearlier | hnow) | hearlier | hnow := hmem
    · exact Nat.le_trans (ih (.inl hearlier)) hle
    · exact Nat.le_of_eq (hturn.generation_of_attempt hnow).symm
    · exact Nat.le_trans (ih (.inr hearlier)) hle
    · exact Nat.le_of_eq (hturn.generation_of_reader hnow).2.symm

/-- The link of an attempt that is decided is not announced any more. -/
theorem Sound.not_opened_of_decided (h : m.Sound) {generation : Nat}
    (hdecided : m.Decided generation) (inputs : List Input) :
    (m.run inputs).1.Decided generation ∧
      ∀ flushed, .opened generation flushed ∉ events (m.run inputs).2 := by
  induction inputs using List.reverseRecOn with
  | nil => exact ⟨hdecided, by simp⟩
  | append_singleton inputs input ih =>
    obtain ⟨hlast, hnone⟩ := ih
    have hturn := (h.run inputs).turn input
    rw [run_concat_fst, run_concat_snd]
    refine ⟨hturn.decided hlast, fun flushed hmem => ?_⟩
    rw [events, seen_append, List.mem_append] at hmem
    obtain hearlier | hnow := hmem
    · exact hnone flushed hearlier
    · -- a link is announced for the present attempt only, and while it is undecided
      obtain ⟨rfl, hundecided, -⟩ := hturn.decided_of_opened (h.run inputs) hnow
      obtain hlt | ⟨-, hnot⟩ := hlast
      · exact absurd hlt (Nat.lt_irrefl _)
      · exact hnot hundecided

/-- An attempt whose link has been announced is decided. -/
theorem Sound.decided_of_opened (h : m.Sound) {inputs : List Input} {generation flushed : Nat}
    (hmem : .opened generation flushed ∈ events (m.run inputs).2) :
    (m.run inputs).1.Decided generation := by
  induction inputs using List.reverseRecOn with
  | nil => simp at hmem
  | append_singleton inputs input ih =>
    have hturn := (h.run inputs).turn input
    rw [run_concat_snd, events, seen_append, List.mem_append] at hmem
    rw [run_concat_fst]
    obtain hearlier | hnow := hmem
    · exact hturn.decided (ih hearlier)
    · exact (hturn.decided_of_opened (h.run inputs) hnow).2.2

end PersistentLink.Manager
