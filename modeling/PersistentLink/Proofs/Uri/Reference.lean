import Mathlib.Data.List.TakeDrop
import PersistentLink.Proofs.Uri.Authority
import PersistentLink.Uri.Reference

/-!
# The parts of a URI

What is known of the parts of a URI in absolute form that was accepted, and when parts that are put
together again are accepted.

## Main definitions

- `CheckedPath`: a path with query as it leaves the check
- `Reference.Absolute`: the parts of a URI in absolute form

## Main results

- `CheckedPath.checkPath_eq`: a path that was checked passes the check as it is
- `Reference.absolute_of_parse`: the parts of a URI that has a scheme
- `Reference.ofAbsolute_append`: an authority and a path are told apart again
-/

namespace PersistentLink.Uri

variable {text path authority scheme : List Char}

/-- The number of octets is that of the encoded text. -/
theorem octets_eq (text : List Char) : octets text = (String.ofList text).utf8ByteSize := by
  have hfold (start : Nat) : text.foldl (fun count c => count + c.utf8Size) start =
      start + (String.ofList text).utf8ByteSize := by
    induction text generalizing start with
    | nil => rfl
    | cons c rest ih =>
      have hsplit : String.ofList (c :: rest) = String.singleton c ++ String.ofList rest := by
        rw [String.singleton_eq_ofList, ← String.ofList_append]
        rfl
      rw [List.foldl_cons, ih, hsplit, String.utf8ByteSize_append, String.utf8ByteSize_singleton]
      omega
  rw [octets, hfold, Nat.zero_add]

/-! ## Paths -/

/-- A path with query as it leaves the check: there is something, every character is admitted where
it stands, and there is no fragment. -/
structure CheckedPath (path : List Char) : Prop where
  nonempty : path ≠ []
  unfragmented : '#' ∉ path
  path_admitted : (path.takeWhile (· != '?')).all isPathChar = true
  query_admitted : ((path.dropWhile (· != '?')).drop 1).all isQueryChar = true

/-- The check, by cases. -/
theorem checkPath_eq (text : List Char) :
    checkPath text =
      if ((text.takeWhile (· != '#')).takeWhile (· != '?')).all isPathChar = true ∧
          (((text.takeWhile (· != '#')).dropWhile (· != '?')).drop 1).all isQueryChar = true then
        .ok (if text.takeWhile (· != '#') = [] then ['/'] else text.takeWhile (· != '#'))
      else .error .invalidCharacter := by
  simp only [checkPath, List.span_eq_takeWhile_dropWhile, Bool.and_eq_true, List.isEmpty_iff]

theorem CheckedPath.checkPath_eq (h : CheckedPath path) : checkPath path = .ok path := by
  have hwhole := (takeWhile_of_not_mem h.unfragmented).1
  rw [Uri.checkPath_eq, hwhole, if_pos ⟨h.path_admitted, h.query_admitted⟩, if_neg h.nonempty]

theorem checkedPath_of_checkPath (h : checkPath text = .ok path) : CheckedPath path := by
  rw [checkPath_eq] at h
  split at h
  · rename_i hadmitted
    obtain rfl := Except.ok.inj h
    split
    · exact ⟨by decide, by decide, by decide, by decide⟩
    · rename_i hnonempty
      exact ⟨hnonempty, not_mem_takeWhile '#' text, hadmitted.1, hadmitted.2⟩
  · cases h

/-- A fragment is not looked at. -/
theorem checkPath_append (unfragmented : '#' ∉ path) (fragment : List Char) :
    checkPath (path ++ '#' :: fragment) = checkPath path := by
  rw [checkPath_eq, checkPath_eq, (takeWhile_append_cons unfragmented).1,
    (takeWhile_of_not_mem unfragmented).1]

/-- A path is kept as it is, but for an empty one, which stands for the root. -/
theorem eq_of_checkPath (h : checkPath text = .ok path) (unfragmented : '#' ∉ text) :
    path = if text = [] then ['/'] else text := by
  rw [checkPath_eq, (takeWhile_of_not_mem unfragmented).1] at h
  split at h
  · exact (Except.ok.inj h).symm
  · cases h

/-- A slash may be put in front of a path. -/
theorem CheckedPath.cons_slash (h : CheckedPath path) : CheckedPath ('/' :: path) where
  nonempty := by simp
  unfragmented := by simp [h.unfragmented]
  path_admitted := by
    have hslash : isPathChar '/' = true := by decide
    simpa [hslash] using h.path_admitted
  query_admitted := by simpa using h.query_admitted

namespace Reference

/-! ## The absolute form -/

/-- The parts of a URI in absolute form. -/
structure Absolute (uri : Reference) (scheme : List Char) : Prop where
  scheme_eq : uri.scheme = some scheme
  checked : checkAuthority uri.authority = .ok ()
  /-- the authority is read as far as it goes -/
  inside : ∀ c ∈ uri.authority, endsAuthority c = false
  checkedPath : CheckedPath uri.path

variable {uri : Reference}

/-- The absolute form, by cases. -/
theorem ofAbsolute_eq (scheme text : List Char) :
    ofAbsolute scheme text =
      if text = [] then .error .empty
      else (checkAuthority (text.takeWhile (!endsAuthority ·))).bind fun _ =>
        if text.takeWhile (!endsAuthority ·) = [] then .error .invalidFormat
        else (checkPath (text.dropWhile (!endsAuthority ·))).map
          (⟨some scheme, text.takeWhile (!endsAuthority ·), ·⟩) := by
  rw [ofAbsolute, List.span_eq_takeWhile_dropWhile]
  cases text with
  | nil => rfl
  | cons c rest =>
    simp only [List.isEmpty_cons, Bool.false_eq_true, if_false, reduceCtorEq]
    cases checkAuthority ((c :: rest).takeWhile (!endsAuthority ·)) with
    | error => rfl
    | ok =>
      cases (c :: rest).takeWhile (!endsAuthority ·) with
      | nil => rfl
      | cons => cases checkPath ((c :: rest).dropWhile (!endsAuthority ·)) <;> rfl

theorem absolute_of_ofAbsolute (h : ofAbsolute scheme text = .ok uri) :
    uri.Absolute scheme := by
  rw [ofAbsolute_eq] at h
  split at h
  · cases h
  · cases hchecked : checkAuthority (text.takeWhile (!endsAuthority ·)) with
    | error => simp [hchecked, Except.bind] at h
    | ok =>
      rw [hchecked, Except.bind] at h
      split at h
      · cases h
      · cases hpath : checkPath (text.dropWhile (!endsAuthority ·)) with
        | error => simp [hpath, Except.map] at h
        | ok path =>
          rw [hpath] at h
          obtain rfl := Except.ok.inj h
          exact ⟨rfl, hchecked, fun c hmem => by simpa using List.mem_takeWhile_imp hmem,
            checkedPath_of_checkPath hpath⟩

/-- An authority and what follows it are told apart. -/
theorem ofAbsolute_append {rest : List Char} (inside : ∀ c ∈ authority, endsAuthority c = false)
    (nonempty : authority ≠ []) (hend : ∀ c ∈ rest.head?, endsAuthority c = true) :
    ofAbsolute scheme (authority ++ rest) = (checkAuthority authority).bind fun _ =>
      (checkPath rest).map (⟨some scheme, authority, ·⟩) := by
  have hall : ∀ c ∈ authority, (!endsAuthority c) = true := by simpa using inside
  rw [ofAbsolute_eq, if_neg (by simp [nonempty]), List.takeWhile_append_of_pos hall,
    List.dropWhile_append_of_pos hall]
  cases rest with
  | nil => simp [nonempty]
  | cons c rest =>
    have hc : endsAuthority c = true := hend c rfl
    simp [hc, nonempty]

/-- An authority that is missing is not made up for. -/
theorem exists_fault_of_ends {rest : List Char} (hend : ∀ c ∈ rest.head?, endsAuthority c = true) :
    ∃ fault, ofAbsolute scheme rest = .error fault := by
  rw [ofAbsolute_eq]
  cases rest with
  | nil => exact ⟨.empty, rfl⟩
  | cons c rest =>
    have hc : endsAuthority c = true := hend c rfl
    refine ⟨.invalidFormat, ?_⟩
    rw [if_neg (by simp), List.takeWhile_cons_of_neg (by simp [hc])]
    rfl

/-! ## Telling the forms apart -/

theorem scheme_eq_none_of_ofAuthority (h : ofAuthority text = .ok uri) : uri.scheme = none := by
  unfold ofAuthority at h
  cases hchecked : checkAuthority (text.takeWhile (!endsAuthority ·)) with
  | error => simp [hchecked, bind, Except.bind] at h
  | ok =>
    simp only [hchecked, bind, Except.bind] at h
    split at h
    · obtain rfl := Except.ok.inj h
      rfl
    · split at h <;> cases h

theorem parse_of_long (hlong : maxLength < octets text) : parse text = .error .tooLong := by
  unfold parse
  simp only [hlong, if_true]
  split <;> rfl

/-- The scheme stands in front of the rest, unless it is one that is known by name. -/
theorem eq_of_splitScheme {after : List Char} (h : splitScheme text = .ok (some (scheme, after)))
    (unknown : scheme ≠ "http".toList ∧ scheme ≠ "https".toList) :
    text = scheme ++ ':' :: '/' :: '/' :: after := by
  unfold splitScheme at h
  split at h
  · obtain ⟨rfl, -⟩ := Prod.mk.inj (Option.some.inj (Except.ok.inj h))
    exact absurd rfl unknown.1
  split at h
  · obtain ⟨rfl, -⟩ := Prod.mk.inj (Option.some.inj (Except.ok.inj h))
    exact absurd rfl unknown.2
  split at h
  · rename_i front rest hspan
    rw [List.span_eq_takeWhile_dropWhile, Prod.mk.injEq] at hspan
    split at h
    · cases h
    split at h
    · cases h
    obtain ⟨rfl, rfl⟩ := Prod.mk.inj (Option.some.inj (Except.ok.inj h))
    rw [← hspan.1, ← hspan.2, List.takeWhile_append_dropWhile]
  · cases h

/-- Only the absolute form has a scheme. -/
theorem exists_ofAbsolute_of_parse (h : parse text = .ok uri) (hscheme : uri.scheme = some scheme) :
    ∃ after, splitScheme text = .ok (some (scheme, after)) ∧
      ofAbsolute scheme after = .ok uri := by
  have relative {P : Prop} (hnone : uri.scheme = none) : P := by
    simp [hnone] at hscheme
  by_cases hlong : maxLength < octets text
  · rw [parse_of_long hlong] at h
    cases h
  · unfold parse at h
    simp only [hlong, if_false] at h
    split at h
    · cases h
    · obtain rfl := Except.ok.inj h
      exact relative rfl
    · rename_i rest
      cases hpath : checkPath ('/' :: rest) with
      | error => simp [hpath, bind, Except.bind] at h
      | ok path =>
        rw [hpath] at h
        obtain rfl := Except.ok.inj h
        exact relative rfl
    · cases hsplit : splitScheme text with
      | error => simp [hsplit, bind, Except.bind] at h
      | ok found =>
        rw [hsplit] at h
        cases found with
        | none => exact relative (scheme_eq_none_of_ofAuthority h)
        | some split =>
          have habsolute := absolute_of_ofAbsolute h
          obtain rfl := Option.some.inj (habsolute.scheme_eq.symm.trans hscheme)
          exact ⟨split.2, rfl, h⟩

theorem absolute_of_parse (h : parse text = .ok uri) (hscheme : uri.scheme = some scheme) :
    uri.Absolute scheme := by
  obtain ⟨after, -, hafter⟩ := exists_ofAbsolute_of_parse h hscheme
  exact absolute_of_ofAbsolute hafter

theorem length_le_of_parse (h : parse text = .ok uri) : octets text ≤ maxLength := by
  by_contra hlong
  rw [parse_of_long (Nat.not_le.mp hlong)] at h
  cases h

/-- A text with a scheme in front is in absolute form. -/
theorem parse_of_splitScheme {after : List Char} (hstart : ∃ c ∈ text.head?, isSchemeChar c = true)
    (hsplit : splitScheme text = .ok (some (scheme, after)))
    (hshort : ¬maxLength < octets text) : parse text = ofAbsolute scheme after := by
  obtain ⟨c, hhead, hc⟩ := hstart
  unfold parse
  simp only [hshort, if_false]
  split
  · cases hhead
  · obtain rfl := Option.some.inj hhead
    exact absurd hc (by decide)
  · obtain rfl := Option.some.inj hhead
    exact absurd hc (by decide)
  · rw [hsplit]
    rfl

end Reference

end PersistentLink.Uri
