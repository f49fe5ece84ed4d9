import Mathlib.Data.List.TakeWhile
import PersistentLink.Proofs.Uri.Scan

/-!
# The parts of an authority

An authority is admitted as a whole, and its parts are cut out of it afterwards: the host after the
user information, and the port after the last colon. The cuts fit together when the authority is
admitted, but the host need not be admitted where it stands alone.

## Main definitions

- `HostCut`: how a text is cut into a host and what follows it

## Main results

- `hostCut`, `hostOf_of_hostCut`: the host of an authority is cut out that way, and no other
- `HostCut.closes`: the bracket with which the host of an admitted authority begins is closed
- `checkAuthority_host_port_iff`: when a host with a port is an authority of its own
-/

namespace PersistentLink.Uri

open AuthorityScan

variable {authority pre rest digits text : List Char} {mark c : Char}

/-! ## Cutting a text at a mark -/

theorem takeWhile_of_not_mem (h : mark ∉ text) :
    text.takeWhile (· != mark) = text ∧ text.dropWhile (· != mark) = [] := by
  have hall : ∀ c ∈ text, (c != mark) = true := by
    intro c hmem
    rw [bne_iff_ne]
    rintro rfl
    exact h hmem
  exact ⟨List.takeWhile_eq_self_iff.mpr hall, List.dropWhile_eq_nil_iff.mpr hall⟩

theorem takeWhile_append_cons (h : mark ∉ pre) :
    (pre ++ mark :: rest).takeWhile (· != mark) = pre ∧
      (pre ++ mark :: rest).dropWhile (· != mark) = mark :: rest := by
  have hall := List.takeWhile_eq_self_iff.mp (takeWhile_of_not_mem h).1
  rw [List.takeWhile_append_of_pos hall, List.dropWhile_append_of_pos hall]
  simp

theorem not_mem_takeWhile (mark : Char) (text : List Char) :
    mark ∉ text.takeWhile (· != mark) := by
  intro hmem
  simpa using List.mem_takeWhile_imp hmem

theorem dropWhile_eq_nil_or_cons (mark : Char) (text : List Char) :
    text.dropWhile (· != mark) = [] ∨ ∃ rest, text.dropWhile (· != mark) = mark :: rest := by
  cases hdrop : text.dropWhile (· != mark) with
  | nil => exact .inl rfl
  | cons c rest =>
    have hhead := List.head_dropWhile_not (· != mark) (l := text) (by simp [hdrop])
    simp only [hdrop, List.head_cons, bne_eq_false_iff_eq] at hhead
    exact .inr ⟨rest, by rw [hhead]⟩

theorem afterLast_of_not_mem (h : mark ∉ text) : afterLast mark text = text := by
  rw [afterLast, (takeWhile_of_not_mem (by simpa using h)).1, List.reverse_reverse]

theorem afterLast_append (h : mark ∉ rest) : afterLast mark (pre ++ mark :: rest) = rest := by
  have hreverse : (pre ++ mark :: rest).reverse = rest.reverse ++ mark :: pre.reverse := by simp
  rw [afterLast, hreverse, (takeWhile_append_cons (by simpa using h)).1, List.reverse_reverse]

/-- A text is cut at the last mark, if there is one. -/
theorem afterLast_cases (mark : Char) (text : List Char) :
    mark ∉ afterLast mark text ∧
      (text = afterLast mark text ∨ ∃ pre, text = pre ++ mark :: afterLast mark text) := by
  by_cases hmem : mark ∈ text
  · obtain ⟨after, before, hreverse, hafter⟩ :=
      List.eq_append_cons_of_mem (List.mem_reverse.mpr hmem)
    have htext : text = before.reverse ++ mark :: after.reverse := by
      rw [← text.reverse_reverse, hreverse]
      simp
    have hlast : afterLast mark text = after.reverse := by
      rw [htext]
      exact afterLast_append (by simpa using hafter)
    rw [hlast]
    exact ⟨by simpa using hafter, .inr ⟨before.reverse, htext⟩⟩
  · rw [afterLast_of_not_mem hmem]
    exact ⟨hmem, .inl rfl⟩

/-! ## The host -/

/-- The user information goes up to the last at sign. -/
theorem exists_userInfo (authority : List Char) :
    ∃ userInfo, authority = userInfo ++ hostAndPort authority ∧
      (userInfo = [] ∨ ∃ user, userInfo = user ++ ['@']) := by
  obtain ⟨-, hwhole | ⟨user, huser⟩⟩ := afterLast_cases '@' authority
  · exact ⟨[], hwhole, .inl rfl⟩
  · refine ⟨user ++ ['@'], ?_, .inr ⟨user, rfl⟩⟩
    rw [List.append_assoc]
    exact huser

/-- Reading goes on after the user information as at the start, but for the brackets. -/
theorem exists_scans_hostAndPort {last : AuthorityScan} (h : Scans {} authority last) :
    ∃ s : AuthorityScan, (s.colons = 0 ∧ s.percent = false) ∧
      (s.closed = true → s.opened = true) ∧ s.Scans (hostAndPort authority) last := by
  obtain ⟨userInfo, hsplit, hend⟩ := exists_userInfo authority
  rw [hsplit] at h
  obtain ⟨s, hbefore, hafter⟩ := scans_append.mp h
  refine ⟨s, ?_, hbefore.opened_of_closed id, hafter⟩
  obtain rfl | ⟨user, rfl⟩ := hend
  · cases hbefore
    exact ⟨rfl, rfl⟩
  · exact hbefore.forgets (.inr rfl)

/-- How a text is cut into a host and what follows it. -/
inductive HostCut : List Char → List Char → List Char → Prop
  | bracketed (address rest : List Char) (h : ']' ∉ address) :
    HostCut ('[' :: (address ++ ']' :: rest)) ('[' :: (address ++ [']'])) rest
  | unclosed (address : List Char) (h : ']' ∉ address) :
    HostCut ('[' :: address) ('[' :: address) []
  | name (host rest : List Char) (unbracketed : host.head? ≠ some '[') (uncut : ':' ∉ host)
      (stop : rest = [] ∨ ∃ port, rest = ':' :: port) : HostCut (host ++ rest) host rest

theorem HostCut.eq_append {host : List Char} (h : HostCut text host rest) :
    text = host ++ rest := by
  cases h <;> simp

theorem hostCut (authority : List Char) :
    ∃ rest, HostCut (hostAndPort authority) (hostOf authority) rest := by
  rw [hostOf]
  split
  · rename_i address hbracket
    have hsplit := List.takeWhile_append_dropWhile (p := (· != ']')) (l := address)
    have hfree := not_mem_takeWhile ']' address
    rw [hbracket]
    obtain hnil | ⟨rest, hrest⟩ := dropWhile_eq_nil_or_cons ']' address
    · rw [hnil, List.append_nil] at hsplit
      rw [hnil, List.take_nil, List.append_nil, hsplit]
      rw [hsplit] at hfree
      exact ⟨[], .unclosed address hfree⟩
    · rw [hrest] at hsplit
      refine ⟨rest, ?_⟩
      have hcut := HostCut.bracketed _ rest hfree
      rw [hsplit] at hcut
      rw [hrest]
      exact hcut
  · rename_i hname
    have hsplit := List.takeWhile_append_dropWhile (p := (· != ':')) (l := hostAndPort authority)
    have hcut := HostCut.name ((hostAndPort authority).takeWhile (· != ':'))
      ((hostAndPort authority).dropWhile (· != ':')) ?_ (not_mem_takeWhile _ _)
      (dropWhile_eq_nil_or_cons _ _)
    · rw [hsplit] at hcut
      exact ⟨_, hcut⟩
    · -- a host that begins with a bracket stands in a text that does
      intro hhead
      obtain ⟨address, haddress⟩ := List.head?_eq_some_iff.mp hhead
      rw [haddress] at hsplit
      exact hname _ hsplit.symm

/-- The host of an authority that is admitted is a bracketed address, or a name that goes up to the
first colon. -/
theorem HostCut.closes {host : List Char} (h : HostCut (hostAndPort authority) host rest)
    (hchecked : checkAuthority authority = .ok ()) :
    (∃ address, ']' ∉ address ∧ host = '[' :: (address ++ [']'])) ∨
      ':' ∉ host ∧ (rest = [] ∨ ∃ port, rest = ':' :: port) := by
  obtain ⟨last, hscans, hend⟩ := checkAuthority_eq_ok.mp hchecked
  obtain ⟨s, -, hbefore, hafter⟩ := exists_scans_hostAndPort hscans
  generalize hostAndPort authority = text at h hafter
  cases h with
  | bracketed address rest h => exact .inl ⟨address, h, rfl⟩
  | name host rest unbracketed uncut stop => exact .inr ⟨uncut, stop⟩
  | unclosed address h =>
    -- the bracket would have been closed in the user information, where none was opened
    have hbrackets := hafter.brackets
    have hopened := hbrackets.opened_iff.mpr (.inr List.mem_cons_self)
    have hclosed : last.closed = true := (mayEnd_iff.mp hend).1 ▸ hopened
    have hearlier := (hbrackets.closed_iff.mp hclosed).resolve_right (by simp [h])
    exact absurd List.mem_cons_self (hbrackets.opening_not_mem (hbefore hearlier))

theorem HostCut.bare {host : List Char} (h : HostCut (hostAndPort authority) host rest) :
    '@' ∉ host ∧ '@' ∉ rest := by
  rw [← not_or, ← List.mem_append, ← h.eq_append]
  exact (afterLast_cases '@' authority).1

/-- The cut is the only one. -/
theorem hostOf_of_hostCut {host : List Char} (h : HostCut text host rest) (bare : '@' ∉ text) :
    hostOf text = host := by
  have hwhole : hostAndPort text = text := afterLast_of_not_mem bare
  rw [hostOf, hwhole]
  cases h with
  | bracketed address rest h => simp [takeWhile_append_cons h]
  | unclosed address h => simp [takeWhile_of_not_mem h]
  | name host rest unbracketed uncut stop =>
    have hname : (host ++ rest).takeWhile (· != ':') = host := by
      obtain rfl | ⟨port, rfl⟩ := stop
      · rw [List.append_nil, (takeWhile_of_not_mem uncut).1]
      · exact (takeWhile_append_cons uncut).1
    split
    · rename_i address hbracket
      cases host with
      | nil => obtain rfl | ⟨port, rfl⟩ := stop <;> simp at hbracket
      | cons c later =>
        obtain ⟨rfl, -⟩ := List.cons.inj hbracket
        exact absurd rfl unbracketed
    · exact hname

/-! ## A host with a port -/

/-- The text of the port stands after the last colon. -/
theorem portTextOf_eq_some_iff {port : List Char} :
    portTextOf text = some port ↔ ':' ∉ port ∧ ∃ before, text = before ++ ':' :: port := by
  rw [portTextOf, Option.ite_none_right_eq_some, List.contains_iff_mem, Option.some.injEq]
  constructor
  · rintro ⟨hmem, rfl⟩
    obtain ⟨hfree, hwhole | hbefore⟩ := afterLast_cases ':' text
    · rw [← hwhole] at hfree
      exact absurd hmem hfree
    · exact ⟨hfree, hbefore⟩
  · rintro ⟨hfree, before, rfl⟩
    exact ⟨by simp, afterLast_append hfree⟩

/-- Digits are not among the marks that count. -/
theorem unmarked_of_isDigit (h : c.isDigit = true) : c ∉ [':', '[', ']', '@', '%'] := by
  simp only [List.mem_cons, List.not_mem_nil, or_false, not_or]
  refine ⟨?_, ?_, ?_, ?_, ?_⟩ <;> rintro rfl <;> exact absurd h (by decide)

theorem reads_of_isDigit (s : AuthorityScan) (h : c.isDigit = true) :
    s.Reads c { s with atSign := false } := by
  refine .plain c ?_ (unmarked_of_isDigit h)
  have hbetween : between 0x30 0x39 c = true := h
  simp [isAuthorityChar, isAlphanumeric, hbetween]

theorem scans_digits (s : AuthorityScan) (hmark : s.atSign = false)
    (hdigits : ∀ c ∈ digits, c.isDigit = true) : s.Scans digits s := by
  induction digits with
  | nil => exact .nil s
  | cons c rest ih =>
    obtain ⟨hnow, hlater⟩ := List.forall_mem_cons.mp hdigits
    have hreads := reads_of_isDigit s hnow
    rw [← hmark] at hreads
    exact .cons hreads (ih hlater)

/-- A host and a port contain a mark exactly if the host does, unless it is the colon between
them. -/
theorem mem_host_port {host : List Char} (hmark : mark ∈ ['[', ']', '@', '%'])
    (hdigits : ∀ c ∈ digits, c.isDigit = true) : mark ∈ host ++ ':' :: digits ↔ mark ∈ host := by
  have hport : mark ∉ ':' :: digits := by
    rw [List.mem_cons, not_or]
    refine ⟨?_, fun hmem => unmarked_of_isDigit (hdigits mark hmem) (List.mem_cons_of_mem _ hmark)⟩
    rintro rfl
    exact absurd hmark (by decide)
  rw [List.mem_append, or_iff_left hport]

/-- No colon is remembered of a host whose brackets are paired: one that begins with a bracket ends
with the other one, and any other host ends before the first colon. -/
theorem HostCut.colons_eq_zero {host : List Char} {s : AuthorityScan}
    (h : HostCut text host rest) (paired : '[' ∈ host ↔ ']' ∈ host) (scans : Scans {} host s) :
    s.colons = 0 := by
  cases h with
  | bracketed address rest =>
    rw [← List.cons_append] at scans
    exact (scans.forgets (.inl rfl)).1
  | unclosed address h => simp [h] at paired
  | name host rest unbracketed uncut =>
    have hcolons := scans.colons_le
    rw [List.count_eq_zero.mpr uncut] at hcolons
    exact Nat.le_zero.mp hcolons

/-- A host with a port after it is cut there again, if its brackets are paired. -/
theorem HostCut.with_port {host : List Char} (h : HostCut text host rest)
    (paired : '[' ∈ host ↔ ']' ∈ host) (digits : List Char) :
    HostCut (host ++ ':' :: digits) host (':' :: digits) := by
  cases h with
  | bracketed address rest h => simpa using HostCut.bracketed address (':' :: digits) h
  | unclosed address h => simp [h] at paired
  | name host rest unbracketed uncut => exact .name host _ unbracketed uncut (.inr ⟨digits, rfl⟩)

theorem hostOf_host_port (paired : '[' ∈ hostOf authority ↔ ']' ∈ hostOf authority)
    (hdigits : ∀ c ∈ digits, c.isDigit = true) :
    hostOf (hostOf authority ++ ':' :: digits) = hostOf authority := by
  obtain ⟨rest, hcut⟩ := hostCut authority
  exact hostOf_of_hostCut (hcut.with_port paired digits)
    ((mem_host_port (by simp) hdigits).not.mpr hcut.bare.1)

theorem portTextOf_host_port (host : List Char) (hdigits : ∀ c ∈ digits, c.isDigit = true) :
    portTextOf (host ++ ':' :: digits) = some digits :=
  portTextOf_eq_some_iff.mpr
    ⟨fun hmem => unmarked_of_isDigit (hdigits ':' hmem) (by simp), host, rfl⟩

theorem mem_of_mem_hostOf (h : c ∈ hostOf authority) : c ∈ authority := by
  obtain ⟨rest, hcut⟩ := hostCut authority
  have hmem : c ∈ hostAndPort authority := by
    rw [hcut.eq_append]
    exact List.mem_append_left rest h
  obtain ⟨userInfo, hsplit, -⟩ := exists_userInfo authority
  rw [hsplit]
  exact List.mem_append_right userInfo hmem

/-- What is remembered of a host whose brackets are paired, and in which a percent sign stands at
most between them, when it is read at the start of an authority. -/
theorem exists_scans_hostOf (hchecked : checkAuthority authority = .ok ())
    (paired : '[' ∈ hostOf authority ↔ ']' ∈ hostOf authority)
    (escaped : '%' ∈ hostOf authority → ']' ∈ hostOf authority) :
    ∃ s, Scans {} (hostOf authority) s ∧ s.colons = 0 ∧ s.percent = false ∧
      s.opened = s.closed := by
  obtain ⟨last, hscans, hend⟩ := checkAuthority_eq_ok.mp hchecked
  obtain ⟨fresh, -, -, hafter⟩ := exists_scans_hostAndPort hscans
  obtain ⟨rest, hcut⟩ := hostCut authority
  have hbare := hcut.bare
  rw [hcut.eq_append] at hafter
  obtain ⟨mid, hhost, hrest⟩ := scans_append.mp hafter
  have hlaxer : Laxer {} fresh := ⟨Nat.zero_le _, by simp, by simp, by simp⟩
  obtain ⟨s, hs, hbelow⟩ := hlaxer.scans hhost fun hmem => .inr (paired.mpr hmem)
  refine ⟨s, hs, hcut.colons_eq_zero paired hs, ?percent, ?brackets⟩
  case brackets =>
    rw [Bool.eq_iff_iff, hs.brackets.opened_iff, hs.brackets.closed_iff, paired]
  case percent =>
    rw [← Bool.not_eq_true]
    intro hpercent
    by_cases hclosed : ']' ∈ hostOf authority
    · -- nothing after the host would have made the authority forget the percent sign
      have hunclosed :=
        hrest.brackets.closing_not_mem (hhost.brackets.closed_iff.mpr (.inr hclosed))
      have hlast := (hrest.percent_iff hunclosed hbare.2).mpr (.inl (hbelow.percent_le hpercent))
      simp [(mayEnd_iff.mp hend).2.2.2] at hlast
    · obtain hstart | hmem := (hs.percent_iff hclosed hbare.1).mp hpercent
      · simp at hstart
      · exact hclosed (escaped hmem)

/-- A host that was cut out of an authority is an authority of its own, together with a port,
exactly if its brackets are paired and it has no percent sign but between them. -/
theorem checkAuthority_host_port_iff (hchecked : checkAuthority authority = .ok ())
    (hdigits : ∀ c ∈ digits, c.isDigit = true) :
    checkAuthority (hostOf authority ++ ':' :: digits) = .ok () ↔
      ('[' ∈ hostOf authority ↔ ']' ∈ hostOf authority) ∧
        ('%' ∈ hostOf authority → ']' ∈ hostOf authority) := by
  have hmarks {mark : Char} (hmark : mark ∈ ['[', ']', '@', '%']) :
      mark ∈ hostOf authority ++ ':' :: digits ↔ mark ∈ hostOf authority :=
    mem_host_port hmark hdigits
  constructor
  · intro hport
    obtain ⟨last, hscans, hend⟩ := checkAuthority_eq_ok.mp hport
    obtain ⟨hsame, -, -, hpercent⟩ := mayEnd_iff.mp hend
    obtain ⟨rest, hcut⟩ := hostCut authority
    have hbare := hcut.bare.1
    have hbrackets := hscans.brackets
    refine ⟨?_, fun hmem => ?_⟩
    · have hpaired := Bool.eq_iff_iff.mp hsame
      rw [hbrackets.opened_iff, hbrackets.closed_iff, hmarks (by simp), hmarks (by simp)] at hpaired
      simpa using hpaired
    · by_contra hclosed
      have hseen := (hscans.percent_iff ((hmarks (by simp)).not.mpr hclosed)
        ((hmarks (by simp)).not.mpr hbare)).mpr (.inr ((hmarks (by simp)).mpr hmem))
      simp [hpercent] at hseen
  · rintro ⟨paired, escaped⟩
    obtain ⟨s, hs, hcolons, hpercent, hsame⟩ := exists_scans_hostOf hchecked paired escaped
    have hcolon : s.Reads ':' { s with colons := 1, atSign := false } := by
      have hreads := Reads.colon (s := s) (by rw [hcolons]; decide)
      rwa [hcolons] at hreads
    refine checkAuthority_eq_ok.mpr ⟨_, scans_append.mpr ⟨s, hs, .cons hcolon
      (scans_digits _ rfl hdigits)⟩, ?_⟩
    exact mayEnd_iff.mpr ⟨hsame, Nat.le_refl 1, rfl, hpercent⟩

end PersistentLink.Uri
