import Mathlib.Data.List.Induction
import Mathlib.Data.List.Infix
import PersistentLink.Proofs.Uri.Authority

/-!
# User information

The user information of an authority is read with the same memory as the host and the port, but at
the at sign that ends it all is forgotten, apart from brackets. So if there are no brackets in it,
the host and the port are admitted after it exactly if they are admitted alone.

## Main definitions

- `IsUserInfo`: what may stand for user information

## Main results

- `IsUserInfo.exists_scans`: such a text is read to its end
- `scans_userInfo_eq`: nothing is remembered of user information
- `checkAuthority_of_userInfo`, `checkAuthority_userInfo`: user information may be left out of an
  authority and put into it
-/

namespace PersistentLink.Uri

open AuthorityScan

variable {user hostPort : List Char} {last : AuthorityScan}

/-- What may stand for user information: characters of an authority without brackets, and no more
colons in a row than are counted. A row ends at an at sign. -/
structure IsUserInfo (user : List Char) : Prop where
  admitted : ∀ c ∈ user, isAuthorityChar c = true ∨ c = '%'
  opening_not_mem : '[' ∉ user
  closing_not_mem : ']' ∉ user
  few : ∀ row, row <:+: user → '@' ∉ row → row.count ':' ≤ 8

theorem afterLast_concat (mark c : Char) (text : List Char) :
    afterLast mark (text ++ [c]) = if c = mark then [] else afterLast mark text ++ [c] := by
  by_cases h : c = mark <;> simp [afterLast, h]

theorem afterLast_suffix (mark : Char) (text : List Char) : afterLast mark text <:+ text := by
  obtain ⟨-, hwhole | ⟨before, hbefore⟩⟩ := afterLast_cases mark text
  · exact ⟨[], hwhole.symm⟩
  · exact ⟨before ++ [mark], by simp [← hbefore]⟩

theorem IsUserInfo.of_concat {c : Char} (h : IsUserInfo (user ++ [c])) : IsUserInfo user where
  admitted c hmem := h.admitted c (List.mem_append_left _ hmem)
  opening_not_mem hmem := h.opening_not_mem (List.mem_append_left _ hmem)
  closing_not_mem hmem := h.closing_not_mem (List.mem_append_left _ hmem)
  few row hrow := h.few row (hrow.trans (List.prefix_append user [c]).isInfix)

/-- User information is read to its end. The colons that are remembered are those of the last
row. -/
theorem IsUserInfo.exists_scans (h : IsUserInfo user) :
    ∃ s, Scans {} user s ∧ s.colons = (afterLast '@' user).count ':' := by
  induction user using List.reverseRecOn with
  | nil => exact ⟨{}, .nil _, rfl⟩
  | append_singleton user c ih =>
    obtain ⟨s, hscans, hcolons⟩ := ih h.of_concat
    have hreads : ∃ next, s.Reads c next ∧
        next.colons = (afterLast '@' (user ++ [c])).count ':' := by
      -- the last row goes on, unless an at sign ends it
      rw [afterLast_concat]
      by_cases hmarked : c ∈ [':', '[', ']', '@', '%']
      · simp only [List.mem_cons, List.not_mem_nil, or_false] at hmarked
        obtain rfl | rfl | rfl | rfl | rfl := hmarked
        · have hrow := h.few (afterLast '@' user ++ [':'])
            ((List.suffix_append_self_iff.mpr (afterLast_suffix '@' user)).isInfix)
            (by simp [(afterLast_cases '@' user).1])
          have few : s.colons < maxColons := by
            rw [List.count_append, List.count_singleton_self] at hrow
            rw [hcolons]
            exact hrow
          exact ⟨_, .colon few, by simp [hcolons]⟩
        · exact absurd (by simp) h.opening_not_mem
        · exact absurd (by simp) h.closing_not_mem
        · exact ⟨_, .userInfo, by simp⟩
        · exact ⟨_, .escape, by simp [hcolons]⟩
      · have hadmitted := h.admitted c (by simp)
        simp only [List.mem_cons, List.not_mem_nil, or_false, not_or] at hmarked
        refine ⟨_, .plain c (hadmitted.resolve_right hmarked.2.2.2.2) (by simp [hmarked]), ?_⟩
        simp [hmarked, hcolons]
    obtain ⟨next, hnext, hcount⟩ := hreads
    exact ⟨next, scans_append.mpr ⟨s, hscans, scans_singleton.mpr hnext⟩, hcount⟩

/-- Nothing is remembered of user information without brackets. -/
theorem scans_userInfo_eq (h : Scans {} (user ++ ['@']) last) (hopening : '[' ∉ user)
    (hclosing : ']' ∉ user) : last = { atSign := true } := by
  have hbrackets := h.brackets
  have hopened : last.opened = false := by
    rw [← Bool.not_eq_true, hbrackets.opened_iff]
    simp [hopening]
  have hclosed : last.closed = false := by
    rw [← Bool.not_eq_true, hbrackets.closed_iff]
    simp [hclosing]
  obtain ⟨hcolons, hpercent⟩ := h.forgets (.inr rfl)
  obtain ⟨mid, -, hlast⟩ := scans_append.mp h
  cases scans_singleton.mp hlast with
  | userInfo => simp_all
  | plain _ _ unmarked => simp at unmarked

/-- Whether the last character was an at sign is not looked at before the end. -/
theorem scans_atSign_iff (nonempty : hostPort ≠ []) :
    Scans { atSign := true } hostPort last ↔ Scans {} hostPort last := by
  cases hostPort with
  | nil => exact absurd rfl nonempty
  | cons c rest =>
    have hread : read { atSign := true } c = read {} c := rfl
    constructor
    · rintro (_ | ⟨reads, scans⟩)
      exact .cons (reads_iff.mpr (hread.symm.trans (reads_iff.mp reads))) scans
    · rintro (_ | ⟨reads, scans⟩)
      exact .cons (reads_iff.mpr (hread.trans (reads_iff.mp reads))) scans

theorem checkAuthority_of_userInfo (h : checkAuthority (user ++ '@' :: hostPort) = .ok ())
    (hopening : '[' ∉ user) (hclosing : ']' ∉ user) (nonempty : hostPort ≠ []) :
    checkAuthority hostPort = .ok () := by
  obtain ⟨last, hscans, hend⟩ := checkAuthority_eq_ok.mp h
  rw [List.append_cons] at hscans
  obtain ⟨mid, huser, hrest⟩ := scans_append.mp hscans
  obtain rfl := scans_userInfo_eq huser hopening hclosing
  exact checkAuthority_eq_ok.mpr ⟨last, (scans_atSign_iff nonempty).mp hrest, hend⟩

theorem checkAuthority_userInfo (h : checkAuthority hostPort = .ok ()) (huser : IsUserInfo user)
    (nonempty : hostPort ≠ []) : checkAuthority (user ++ '@' :: hostPort) = .ok () := by
  obtain ⟨last, hscans, hend⟩ := checkAuthority_eq_ok.mp h
  obtain ⟨s, hs, -⟩ := huser.exists_scans
  have hat : Scans {} (user ++ ['@']) { s with colons := 0, percent := false, atSign := true } :=
    scans_append.mpr ⟨s, hs, scans_singleton.mpr .userInfo⟩
  rw [scans_userInfo_eq hat huser.opening_not_mem huser.closing_not_mem] at hat
  refine checkAuthority_eq_ok.mpr ⟨last, ?_, hend⟩
  rw [List.append_cons]
  exact scans_append.mpr ⟨_, hat, (scans_atSign_iff nonempty).mpr hscans⟩

end PersistentLink.Uri
