import PersistentLink.Uri.Authority

/-!
# Reading an authority

An authority is read from left to right with a small memory. What is remembered at its end follows
from what stands in it: colons and percent signs count from the last `]` or `@`, and each bracket is
admitted once.

## Main definitions

- `AuthorityScan.Reads`: what the next character does to the memory, case by case
- `AuthorityScan.Scans`: what a text does to it
- `AuthorityScan.Laxer`: a memory that admits whatever the other one admits

## Main results

- `AuthorityScan.scans_iff`: a text is read to its end exactly if each character is admitted
- `AuthorityScan.Scans.brackets`, `AuthorityScan.Scans.percent_iff`,
  `AuthorityScan.Scans.colons_le`: what is remembered of a text
- `AuthorityScan.Laxer.scans`: what is admitted in one place is admitted in a laxer one
-/

namespace PersistentLink.Uri

namespace AuthorityScan

/-! ## The cases of a character -/

/-- What a character does that is admitted. -/
inductive Reads (s : AuthorityScan) : Char → AuthorityScan → Prop
  | colon (few : s.colons < maxColons) :
    Reads s ':' { s with colons := s.colons + 1, atSign := false }
  | opening (unescaped : s.percent = false) (unopened : s.opened = false) :
    Reads s '[' { s with opened := true, atSign := false }
  | closing (opened : s.opened = true) (unclosed : s.closed = false) :
    Reads s ']' { s with closed := true, colons := 0, percent := false, atSign := false }
  | userInfo : Reads s '@' { s with colons := 0, percent := false, atSign := true }
  | escape : Reads s '%' { s with percent := true, atSign := false }
  | plain (c : Char) (admitted : isAuthorityChar c = true)
      (unmarked : c ∉ [':', '[', ']', '@', '%']) : Reads s c { s with atSign := false }

/-- What a text does all of whose characters are admitted. -/
inductive Scans : AuthorityScan → List Char → AuthorityScan → Prop
  | nil (s : AuthorityScan) : Scans s [] s
  | cons {s next last : AuthorityScan} {c : Char} {text : List Char} (reads : s.Reads c next)
      (scans : Scans next text last) : Scans s (c :: text) last

variable {s t next last : AuthorityScan} {c : Char} {text first second : List Char}

theorem read_colon (s : AuthorityScan) : s.read ':' =
    if s.colons < maxColons then .ok { s with colons := s.colons + 1, atSign := false }
    else .error .invalidAuthority := by
  simp [read]

theorem read_opening (s : AuthorityScan) : s.read '[' =
    if s.percent = true ∨ s.opened = true then .error .invalidAuthority
    else .ok { s with opened := true, atSign := false } := by
  simp [read]

theorem read_closing (s : AuthorityScan) : s.read ']' =
    if s.opened = false ∨ s.closed = true then .error .invalidAuthority
    else .ok { s with closed := true, colons := 0, percent := false, atSign := false } := by
  simp [read]

/-- A character that is admitted is one of the cases. -/
theorem reads_of_read (h : s.read c = .ok next) : s.Reads c next := by
  by_cases marked : c ∈ [':', '[', ']', '@', '%']
  · simp only [List.mem_cons, List.not_mem_nil, or_false] at marked
    obtain rfl | rfl | rfl | rfl | rfl := marked
    · rw [read_colon] at h
      split at h
      · rename_i few
        obtain rfl := Except.ok.inj h
        exact .colon few
      · cases h
    · rw [read_opening] at h
      split at h
      · cases h
      · rename_i hfree
        obtain ⟨unescaped, unopened⟩ := not_or.mp hfree
        obtain rfl := Except.ok.inj h
        exact .opening (by simpa using unescaped) (by simpa using unopened)
    · rw [read_closing] at h
      split at h
      · cases h
      · rename_i hfree
        obtain ⟨opened, unclosed⟩ := not_or.mp hfree
        obtain rfl := Except.ok.inj h
        exact .closing (by simpa using opened) (by simpa using unclosed)
    · obtain rfl := Except.ok.inj h
      exact .userInfo
    · obtain rfl := Except.ok.inj h
      exact .escape
  · have unmarked := marked
    simp only [List.mem_cons, List.not_mem_nil, or_false, not_or] at marked
    obtain ⟨hcolon, hopening, hclosing, hat, hescape⟩ := marked
    simp only [read, beq_iff_eq, hcolon, hopening, hclosing, hat, hescape, if_false] at h
    split at h
    · rename_i admitted
      obtain rfl := Except.ok.inj h
      rw [beq_false_of_ne hat]
      exact .plain c admitted unmarked
    · cases h

theorem reads_iff : s.Reads c next ↔ s.read c = .ok next := by
  refine ⟨fun h => ?_, reads_of_read⟩
  cases h with
  | plain _ admitted unmarked => simp_all [read]
  | _ => simp_all [read]

/-- A text is read to its end exactly if each character is admitted. -/
theorem scans_iff : s.Scans text last ↔ text.foldlM read s = .ok last := by
  constructor
  · intro h
    induction h with
    | nil => rfl
    | cons reads _ ih => rw [List.foldlM_cons, reads_iff.mp reads, ← ih]; rfl
  · intro h
    induction text generalizing s with
    | nil =>
      obtain rfl := Except.ok.inj h
      exact .nil s
    | cons c rest ih =>
      rw [List.foldlM_cons] at h
      cases hread : s.read c with
      | error fault => simp [hread, bind, Except.bind] at h
      | ok next =>
        rw [hread] at h
        exact .cons (reads_of_read hread) (ih h)

theorem scans_append :
    s.Scans (first ++ second) last ↔ ∃ mid, s.Scans first mid ∧ mid.Scans second last := by
  constructor
  · intro h
    induction first generalizing s with
    | nil => exact ⟨s, .nil s, h⟩
    | cons c rest ih =>
      cases h with
      | cons reads scans =>
        obtain ⟨mid, hfirst, hsecond⟩ := ih scans
        exact ⟨mid, .cons reads hfirst, hsecond⟩
  · rintro ⟨mid, hfirst, hsecond⟩
    induction hfirst with
    | nil => exact hsecond
    | cons reads _ ih => exact .cons reads (ih hsecond)

theorem scans_singleton : s.Scans [c] last ↔ s.Reads c last := by
  constructor
  · rintro (_ | ⟨reads, _ | _⟩)
    exact reads
  · exact fun reads => .cons reads (.nil last)

/-! ## What is remembered -/

/-- What a character says about brackets. -/
theorem Reads.brackets (h : s.Reads c next) :
    (next.opened = true ↔ s.opened = true ∨ c = '[') ∧
      (next.closed = true ↔ s.closed = true ∨ c = ']') ∧
      (s.opened = true → c ≠ '[') ∧ (s.closed = true → c ≠ ']') ∧
      (c = ']' → s.opened = true) := by
  cases h with
  | plain c _ unmarked =>
    simp only [List.mem_cons, List.not_mem_nil, or_false, not_or] at unmarked
    simp [unmarked]
  | opening _ unopened => simp [unopened]
  | closing opened unclosed => simp [opened, unclosed]
  | _ => simp

/-- Each bracket is seen if it stands in the text, and stands there once. -/
structure Brackets (s last : AuthorityScan) (text : List Char) : Prop where
  opened_iff : last.opened = true ↔ s.opened = true ∨ '[' ∈ text
  closed_iff : last.closed = true ↔ s.closed = true ∨ ']' ∈ text
  opening_not_mem : s.opened = true → '[' ∉ text
  closing_not_mem : s.closed = true → ']' ∉ text

theorem Scans.brackets (h : s.Scans text last) : Brackets s last text := by
  induction h with
  | nil => constructor <;> simp
  | cons reads _ ih =>
    obtain ⟨hopened, hclosed, honce, hlast, -⟩ := reads.brackets
    constructor
    · rw [ih.opened_iff, hopened, List.mem_cons, or_assoc, eq_comm (a := '[')]
    · rw [ih.closed_iff, hclosed, List.mem_cons, or_assoc, eq_comm (a := ']')]
    · intro opened
      rw [List.mem_cons, not_or]
      exact ⟨(honce opened).symm, ih.opening_not_mem (hopened.mpr (.inl opened))⟩
    · intro closed
      rw [List.mem_cons, not_or]
      exact ⟨(hlast closed).symm, ih.closing_not_mem (hclosed.mpr (.inl closed))⟩

/-- A bracket is closed only after one was opened. -/
theorem Scans.opened_of_closed (h : s.Scans text last)
    (before : s.closed = true → s.opened = true) : last.closed = true → last.opened = true := by
  induction h with
  | nil => exact before
  | cons reads _ ih =>
    obtain ⟨hopened, hclosed, -, -, hclosing⟩ := reads.brackets
    refine ih fun closed => hopened.mpr (.inl ?_)
    obtain hearlier | hnow := hclosed.mp closed
    · exact before hearlier
    · exact hclosing hnow

/-- Percent signs and colons are not forgotten within a host without brackets. -/
theorem Scans.percent_iff (h : s.Scans text last) (unclosed : ']' ∉ text) (bare : '@' ∉ text) :
    last.percent = true ↔ s.percent = true ∨ '%' ∈ text := by
  induction h with
  | nil => simp
  | cons reads _ ih =>
    obtain ⟨hclosing, unclosed⟩ := List.ne_and_not_mem_of_not_mem_cons unclosed
    obtain ⟨hat, bare⟩ := List.ne_and_not_mem_of_not_mem_cons bare
    rw [ih unclosed bare]
    cases reads with
    | plain c _ unmarked =>
      simp only [List.mem_cons, List.not_mem_nil, or_false, not_or] at unmarked
      simp [Ne.symm unmarked.2.2.2.2]
    | closing => exact absurd rfl hclosing
    | userInfo => exact absurd rfl hat
    | _ => simp

theorem Scans.colons_le (h : s.Scans text last) : last.colons ≤ s.colons + text.count ':' := by
  induction h with
  | nil => simp
  | cons reads _ ih =>
    rw [List.count_cons]
    cases reads with
    | plain c => simp only at ih; omega
    | _ => simp at ih ⊢; omega

/-- Right after a bracketed address or the user information nothing is remembered of it. -/
theorem Scans.forgets (h : s.Scans (text ++ [c]) last) (hc : c = ']' ∨ c = '@') :
    last.colons = 0 ∧ last.percent = false := by
  obtain ⟨mid, -, hlast⟩ := scans_append.mp h
  have reads := scans_singleton.mp hlast
  obtain rfl | rfl := hc
  · cases reads with
    | closing => exact ⟨rfl, rfl⟩
    | plain _ _ unmarked => simp at unmarked
  · cases reads with
    | userInfo => exact ⟨rfl, rfl⟩
    | plain _ _ unmarked => simp at unmarked

/-! ## Reading a part in another place -/

/-- One memory admits whatever the other one admits, as long as no bracket is closed that only the
other one has seen opened. -/
structure Laxer (t s : AuthorityScan) : Prop where
  colons_le : t.colons ≤ s.colons
  percent_le : t.percent = true → s.percent = true
  opened_le : t.opened = true → s.opened = true
  closed_le : t.closed = true → s.closed = true

theorem Laxer.reads (h : t.Laxer s) (reads : s.Reads c next)
    (paired : c = ']' → t.opened = true) : ∃ other, t.Reads c other ∧ other.Laxer next := by
  have hcolons := h.colons_le
  cases reads with
  | colon few =>
    exact ⟨_, .colon (by omega), Nat.succ_le_succ hcolons, h.percent_le, h.opened_le, h.closed_le⟩
  | opening unescaped unopened =>
    refine ⟨_, .opening ?_ ?_, hcolons, h.percent_le, fun _ => rfl, h.closed_le⟩
    · exact Bool.eq_false_iff.mpr fun hp => by simp [h.percent_le hp] at unescaped
    · exact Bool.eq_false_iff.mpr fun ho => by simp [h.opened_le ho] at unopened
  | closing opened unclosed =>
    refine ⟨_, .closing (paired rfl) ?_, Nat.le_refl 0, id, h.opened_le, fun _ => rfl⟩
    exact Bool.eq_false_iff.mpr fun hc => by simp [h.closed_le hc] at unclosed
  | userInfo => exact ⟨_, .userInfo, Nat.le_refl 0, id, h.opened_le, h.closed_le⟩
  | escape => exact ⟨_, .escape, hcolons, fun _ => rfl, h.opened_le, h.closed_le⟩
  | plain c admitted unmarked =>
    exact ⟨_, .plain c admitted unmarked, hcolons, h.percent_le, h.opened_le, h.closed_le⟩

/-- What is admitted in one place is admitted in a laxer one, if the bracket that is closed in it is
also opened in it. -/
theorem Laxer.scans (h : t.Laxer s) (scans : s.Scans text last)
    (paired : ']' ∈ text → t.opened = true ∨ '[' ∈ text) :
    ∃ other, t.Scans text other ∧ other.Laxer last := by
  induction scans generalizing t with
  | nil => exact ⟨t, .nil t, h⟩
  | @cons s next last c text reads rest ih =>
    obtain ⟨hopened, -, -, -, hclosing⟩ := reads.brackets
    have hnow : c = ']' → t.opened = true := by
      rintro rfl
      refine (paired List.mem_cons_self).resolve_right ?_
      simpa using rest.brackets.opening_not_mem (hopened.mpr (.inl (hclosing rfl)))
    obtain ⟨other, hother, hlaxer⟩ := h.reads reads hnow
    have hlater : ']' ∈ text → other.opened = true ∨ '[' ∈ text := by
      intro hmem
      rw [hother.brackets.1]
      obtain hbefore | hafter := paired (List.mem_cons_of_mem c hmem)
      · exact .inl (.inl hbefore)
      · obtain rfl | hlater := List.mem_cons.mp hafter
        · exact .inl (.inr rfl)
        · exact .inr hlater
    obtain ⟨final, hscans, hend⟩ := ih hlaxer hlater
    exact ⟨final, .cons hother hscans, hend⟩

end AuthorityScan

open AuthorityScan

variable {authority : List Char}

/-- An authority that is admitted. -/
theorem checkAuthority_eq_ok :
    checkAuthority authority = .ok () ↔
      ∃ last, Scans {} authority last ∧ last.mayEnd = true := by
  rw [checkAuthority, scanAuthority]
  cases hscan : authority.foldlM AuthorityScan.read {} with
  | error fault => simp [scans_iff, hscan, bind, Except.bind]
  | ok last => simp [scans_iff, hscan, bind, Except.bind]

theorem mayEnd_iff {s : AuthorityScan} : s.mayEnd = true ↔
    s.opened = s.closed ∧ s.colons ≤ 1 ∧ s.atSign = false ∧ s.percent = false := by
  simp [mayEnd, and_assoc]

end PersistentLink.Uri
