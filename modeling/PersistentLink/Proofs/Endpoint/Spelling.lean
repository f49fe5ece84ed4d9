import PersistentLink.Proofs.Endpoint.HostPort
import PersistentLink.Proofs.Ensemble.Records
import PersistentLink.Proofs.Uri.UserInfo

/-!
# Addresses as they are written

The address of an endpoint is written with user information and a fragment, or without them, and
read as the same endpoint. So credentials that were written into an address are not handed on: all
that a transport is given, and all that is logged, is put together from the other parts.

## Main definitions

- `Spelling`: the parts of an address as it is written
- `Spelling.Apart`: the parts lie where the text is cut
- `Spelling.endpoint`: the endpoint that is made of some of the parts
- `Spelling.respelled`: the address with other user information and another fragment

## Main results

- `Spelling.Apart.read_iff`: what an address is read as, part by part
- `exists_spelling`: every address that is read is written in parts
- `Endpoint.read_ignores_credentials`: addresses that differ in user information and fragment
-/

namespace PersistentLink

open Uri

/-- The parts of an address as it is written. -/
structure Spelling where
  scheme : Scheme
  /-- what stands before the last at sign of the authority -/
  userInfo : Option (List Char)
  hostPort : List Char
  /-- path and query -/
  path : List Char
  fragment : Option (List Char)

namespace Spelling

/-- The authority: user information, if there is any, and host and port. -/
def authority (a : Spelling) : List Char :=
  (a.userInfo.elim [] (· ++ ['@'])) ++ a.hostPort

/-- What follows the authority. -/
def rest (a : Spelling) : List Char :=
  a.path ++ a.fragment.elim [] ('#' :: ·)

/-- The whole address. -/
def text (a : Spelling) : String :=
  String.ofList (a.scheme.name.toList ++ ':' :: '/' :: '/' :: (a.authority ++ a.rest))

/-- The parts lie where the text is cut. -/
structure Apart (a : Spelling) : Prop where
  inside : ∀ c ∈ a.authority, endsAuthority c = false
  bare : '@' ∉ a.hostPort
  path_starts : ∀ c ∈ a.path.head?, endsAuthority c = true
  unfragmented : '#' ∉ a.path

variable {a b : Spelling} {e : Endpoint} {path : List Char}

theorem hostAndPort_authority (bare : '@' ∉ a.hostPort) :
    hostAndPort a.authority = a.hostPort := by
  unfold authority hostAndPort
  cases a.userInfo with
  | none => exact afterLast_of_not_mem bare
  | some user =>
    have hlast : afterLast '@' (user ++ '@' :: a.hostPort) = a.hostPort := afterLast_append bare
    simpa using hlast

theorem Apart.checkPath_rest (h : a.Apart) : checkPath a.rest = checkPath a.path := by
  unfold rest
  cases a.fragment with
  | none => simp
  | some fragment => exact checkPath_append h.unfragmented fragment

theorem Apart.rest_starts (h : a.Apart) : ∀ c ∈ a.rest.head?, endsAuthority c = true := by
  intro c hc
  unfold rest at hc
  cases hpath : a.path with
  | cons first later =>
    have hstarts := h.path_starts
    rw [hpath] at hc hstarts
    exact hstarts c hc
  | nil =>
    cases hfragment : a.fragment with
    | none => simp [hpath, hfragment] at hc
    | some fragment =>
      rw [hpath, hfragment] at hc
      obtain rfl : '#' = c := by simpa using hc
      rfl

/-- The URI that an address is split into, if its path is admitted. -/
def reference (a : Spelling) (path : List Char) : Reference :=
  ⟨some a.scheme.name.toList, a.authority, path⟩

/-- An address that is not too long is split at its scheme. -/
theorem parse_text (short : a.text.utf8ByteSize ≤ maxLength) : Reference.parse a.text.toList =
    Reference.ofAbsolute a.scheme.name.toList (a.authority ++ a.rest) := by
  have hshort : ¬maxLength < octets a.text.toList := by
    rw [octets_eq, String.ofList_toList]
    exact Nat.not_lt.mpr short
  rw [text, String.toList_ofList] at hshort ⊢
  exact Endpoint.parse_name _ _ hshort

theorem Apart.ofAbsolute_eq (h : a.Apart) (nonempty : a.authority ≠ []) :
    Reference.ofAbsolute a.scheme.name.toList (a.authority ++ a.rest) =
      (checkAuthority a.authority).bind fun _ => (checkPath a.path).map a.reference := by
  rw [Reference.ofAbsolute_append h.inside nonempty h.rest_starts, h.checkPath_rest]
  rfl

/-- What an address is read as, part by part. -/
theorem Apart.read_eq_ok_iff (h : a.Apart) : Endpoint.read a.text = .ok e ↔
    a.text.utf8ByteSize ≤ maxLength ∧ a.authority ≠ [] ∧ checkAuthority a.authority = .ok () ∧
      ∃ path, checkPath a.path = .ok path ∧ e.NamedBy (a.reference path) := by
  rw [Endpoint.read_eq_ok_iff]
  constructor
  · intro hparse
    obtain ⟨uri, huri, hnamed⟩ := Endpoint.exists_namedBy_of_parse hparse
    have short := Reference.length_le_of_parse huri
    rw [octets_eq, String.ofList_toList] at short
    rw [parse_text short] at huri
    have nonempty : a.authority ≠ [] := by
      intro hnil
      obtain ⟨fault, hfault⟩ := Reference.exists_fault_of_ends h.rest_starts
      rw [hnil, List.nil_append, hfault] at huri
      cases huri
    rw [h.ofAbsolute_eq nonempty] at huri
    cases hchecked : checkAuthority a.authority with
    | error => simp [hchecked, Except.bind] at huri
    | ok =>
      cases hpath : checkPath a.path with
      | error => simp [hchecked, hpath, Except.bind, Except.map] at huri
      | ok path =>
        rw [hchecked, hpath] at huri
        obtain rfl := Except.ok.inj huri
        exact ⟨short, nonempty, rfl, path, rfl, hnamed⟩
  · rintro ⟨short, nonempty, hchecked, path, hpath, hnamed⟩
    rw [Endpoint.parse, parse_text short, h.ofAbsolute_eq nonempty, hchecked, hpath]
    exact Endpoint.ofReference_eq_ok_iff.mpr hnamed

/-! ## User information -/

/-- The endpoint that is made of scheme, host and port, and path. -/
def endpoint (a : Spelling) : Endpoint :=
  .ofParts a.scheme (String.ofList (hostOf a.hostPort))
    (((portTextOf a.hostPort).bind readPort).getD a.scheme.defaultPort) (String.ofList a.path)

/-- There are no brackets in the user information. -/
def Unbracketed (a : Spelling) : Prop :=
  ∀ user ∈ a.userInfo, '[' ∉ user ∧ ']' ∉ user

theorem hostOf_authority (bare : '@' ∉ a.hostPort) : hostOf a.authority = hostOf a.hostPort := by
  have hplain : hostAndPort a.hostPort = a.hostPort := afterLast_of_not_mem bare
  rw [hostOf, hostOf, hostAndPort_authority bare, hplain]

theorem port_authority (bare : '@' ∉ a.hostPort) (hchecked : checkAuthority a.authority = .ok ())
    (hplain : checkAuthority a.hostPort = .ok ()) :
    (portTextOf a.authority).bind readPort = (portTextOf a.hostPort).bind readPort := by
  obtain ⟨rest, hcut⟩ := hostCut a.hostPort
  rw [hcut.port_eq hplain]
  have hsame : hostAndPort a.hostPort = hostAndPort a.authority := by
    rw [hostAndPort_authority bare]
    exact afterLast_of_not_mem bare
  rw [hsame] at hcut
  exact hcut.port_eq hchecked

theorem checkAuthority_hostPort (h : checkAuthority a.authority = .ok ())
    (unbracketed : a.Unbracketed) (nonempty : a.hostPort ≠ []) :
    checkAuthority a.hostPort = .ok () := by
  unfold authority at h
  unfold Unbracketed at unbracketed
  cases huser : a.userInfo with
  | none => simpa [huser] using h
  | some user =>
    obtain ⟨hopening, hclosing⟩ := unbracketed user (by simp [huser])
    have hwhole : checkAuthority (user ++ '@' :: a.hostPort) = .ok () := by
      simpa [huser] using h
    exact checkAuthority_of_userInfo hwhole hopening hclosing nonempty

theorem checkAuthority_authority (h : checkAuthority a.hostPort = .ok ())
    (admitted : ∀ user ∈ a.userInfo, IsUserInfo user) (nonempty : a.hostPort ≠ []) :
    checkAuthority a.authority = .ok () := by
  unfold authority
  cases huser : a.userInfo with
  | none => simpa using h
  | some user =>
    simpa using checkAuthority_userInfo h (admitted user (by simp [huser])) nonempty

theorem namedBy_iff (bare : '@' ∉ a.hostPort) (unfragmented : '#' ∉ a.path)
    (hpath : checkPath a.path = .ok path) (hchecked : checkAuthority a.authority = .ok ())
    (hplain : checkAuthority a.hostPort = .ok ()) :
    e.NamedBy (a.reference path) ↔ hostOf a.hostPort ≠ [] ∧ e = a.endpoint := by
  have hrooted : Endpoint.rooted (String.ofList path) = Endpoint.rooted (String.ofList a.path) := by
    -- without a fragment the path is taken as it is, but for the empty one
    rw [eq_of_checkPath hpath unfragmented]
    split
    · rename_i hnil
      rw [hnil]
      rfl
    · rfl
  have hscheme : (a.reference path).scheme = some a.scheme.name.toList := rfl
  have hparts := Endpoint.ofReference_of_scheme hscheme
  simp only [reference, hostOf_authority bare, port_authority bare hchecked hplain] at hparts
  rw [← Endpoint.ofReference_eq_ok_iff, reference, hparts, Endpoint.ofParts, hrooted]
  split
  · rename_i hnil
    simp [hnil]
  · rename_i hhost
    simp [hhost, endpoint, Endpoint.ofParts, eq_comm]

/-- What an address is read as, if there are no brackets in its user information. -/
theorem Apart.read_iff (h : a.Apart) (unbracketed : a.Unbracketed) :
    Endpoint.read a.text = .ok e ↔
      a.text.utf8ByteSize ≤ maxLength ∧ checkAuthority a.authority = .ok () ∧
        (∃ path, checkPath a.path = .ok path) ∧ hostOf a.hostPort ≠ [] ∧ e = a.endpoint := by
  have hosted (hhost : hostOf a.hostPort ≠ []) : a.hostPort ≠ [] := by
    intro hnil
    rw [hnil] at hhost
    exact hhost rfl
  rw [h.read_eq_ok_iff]
  constructor
  · rintro ⟨short, -, hchecked, path, hpath, hnamed⟩
    have hhost : hostOf a.hostPort ≠ [] := by
      rw [← hostOf_authority h.bare]
      exact hnamed.host_eq ▸ hnamed.host_ne
    have hplain := checkAuthority_hostPort hchecked unbracketed (hosted hhost)
    exact ⟨short, hchecked, ⟨path, hpath⟩,
      (namedBy_iff h.bare h.unfragmented hpath hchecked hplain).mp hnamed⟩
  · rintro ⟨short, hchecked, ⟨path, hpath⟩, hhost, rfl⟩
    have nonempty : a.authority ≠ [] := by simp [authority, hosted hhost]
    have hplain := checkAuthority_hostPort hchecked unbracketed (hosted hhost)
    exact ⟨short, nonempty, hchecked, path, hpath,
      (namedBy_iff h.bare h.unfragmented hpath hchecked hplain).mpr ⟨hhost, rfl⟩⟩

/-! ## Other user information and another fragment -/

/-- The address with other user information and another fragment, or without them. -/
def respelled (a : Spelling) (userInfo fragment : Option (List Char)) : Spelling :=
  { a with userInfo, fragment }

theorem endsAuthority_of_admitted {c : Char} (h : isAuthorityChar c = true ∨ c = '%') :
    endsAuthority c = false := by
  by_contra hends
  simp only [endsAuthority, Bool.not_eq_false, Bool.or_eq_true, beq_iff_eq] at hends
  obtain (rfl | rfl) | rfl := hends <;> exact absurd h (by decide)

theorem Apart.respelled (h : a.Apart) {userInfo : Option (List Char)}
    (admitted : ∀ user ∈ userInfo, IsUserInfo user) (fragment : Option (List Char)) :
    (a.respelled userInfo fragment).Apart where
  inside c hmem := by
    have hhost : ∀ c ∈ a.hostPort, endsAuthority c = false :=
      fun c hmem => h.inside c (List.mem_append_right _ hmem)
    cases userInfo with
    | none => exact hhost c hmem
    | some user =>
      obtain (hmem | rfl) | hmem : (c ∈ user ∨ c = '@') ∨ c ∈ a.hostPort := by
        simpa [authority, Spelling.respelled, or_assoc] using hmem
      · exact endsAuthority_of_admitted ((admitted user rfl).admitted c hmem)
      · rfl
      · exact hhost c hmem
  bare := h.bare
  path_starts := h.path_starts
  unfragmented := h.unfragmented

/-- Another spelling is read as the same endpoint, if it is not too long. -/
theorem Apart.read_respelled (h : a.Apart) (unbracketed : a.Unbracketed)
    (hread : Endpoint.read a.text = .ok e) {userInfo fragment : Option (List Char)}
    (admitted : ∀ user ∈ userInfo, IsUserInfo user)
    (short : (a.respelled userInfo fragment).text.utf8ByteSize ≤ maxLength) :
    Endpoint.read (a.respelled userInfo fragment).text = .ok e := by
  obtain ⟨-, hchecked, hpath, hhost, rfl⟩ := (h.read_iff unbracketed).mp hread
  have hosted : a.hostPort ≠ [] := by
    intro hnil
    rw [hnil] at hhost
    exact hhost rfl
  have hplain := checkAuthority_hostPort hchecked unbracketed hosted
  have hother : checkAuthority (a.respelled userInfo fragment).authority = .ok () :=
    checkAuthority_authority hplain admitted hosted
  have hbrackets : (a.respelled userInfo fragment).Unbracketed := fun user hmem =>
    ⟨(admitted user hmem).opening_not_mem, (admitted user hmem).closing_not_mem⟩
  exact ((h.respelled admitted fragment).read_iff hbrackets).mpr ⟨short, hother, hpath, hhost, rfl⟩

end Spelling

/-! ## Every address is written in parts -/

theorem exists_userInfo_hostPort (authority : List Char) :
    ∃ (userInfo : Option (List Char)) (hostPort : List Char), '@' ∉ hostPort ∧
      authority = userInfo.elim [] (· ++ ['@']) ++ hostPort := by
  obtain ⟨hbare, hwhole | ⟨user, huser⟩⟩ := afterLast_cases '@' authority
  · exact ⟨none, _, hbare, hwhole⟩
  · exact ⟨some user, _, hbare, by simpa using huser⟩

theorem exists_path_fragment (rest : List Char) :
    ∃ (path : List Char) (fragment : Option (List Char)), '#' ∉ path ∧
      rest = path ++ fragment.elim [] ('#' :: ·) := by
  have hsplit : rest.takeWhile (· != '#') ++ rest.dropWhile (· != '#') = rest :=
    List.takeWhile_append_dropWhile
  have unfragmented := not_mem_takeWhile '#' rest
  obtain hnil | ⟨fragment, hfragment⟩ := dropWhile_eq_nil_or_cons '#' rest
  · rw [hnil] at hsplit
    exact ⟨_, none, unfragmented, hsplit.symm⟩
  · rw [hfragment] at hsplit
    exact ⟨_, some fragment, unfragmented, hsplit.symm⟩

theorem exists_spelling {input : String} {e : Endpoint} (h : Endpoint.read input = .ok e) :
    ∃ a : Spelling, a.Apart ∧ a.text = input := by
  obtain ⟨uri, huri, hnamed⟩ := Endpoint.exists_namedBy_of_parse (Endpoint.read_eq_ok_iff.mp h)
  obtain ⟨after, hscheme, -⟩ := Reference.exists_ofAbsolute_of_parse huri hnamed.scheme_eq
  have hinput := Reference.eq_of_splitScheme hscheme (by cases e.scheme <;> decide)
  -- the authority is cut at its last at sign, and what follows at its first number sign
  obtain ⟨userInfo, hostPort, bare, hauthority⟩ :=
    exists_userInfo_hostPort (after.takeWhile (!endsAuthority ·))
  obtain ⟨path, fragment, unfragmented, hrest⟩ :=
    exists_path_fragment (after.dropWhile (!endsAuthority ·))
  refine ⟨⟨e.scheme, userInfo, hostPort, path, fragment⟩, ⟨?_, bare, ?_, unfragmented⟩, ?_⟩
  · intro c hmem
    rw [Spelling.authority, ← hauthority] at hmem
    simpa using List.mem_takeWhile_imp hmem
  · intro c hc
    have hhead := List.head?_dropWhile_not (!endsAuthority ·) after
    rw [hrest, List.head?_append, Option.mem_def.mp hc] at hhead
    simpa using hhead
  · rw [Spelling.text, Spelling.authority, Spelling.rest, ← hauthority, ← hrest,
      List.takeWhile_append_dropWhile, ← hinput, String.ofList_toList]

namespace Endpoint

/-- **Credentials are not handed on.** An address is read as the same endpoint when its user
information and its fragment are replaced, put in or left out: the endpoint is made of the other
parts. A manager of the endpoint knows the address that is put together from these, and no other
address is logged. -/
theorem read_ignores_credentials {input : String} {e : Endpoint} (h : Endpoint.read input = .ok e) :
    (∃ a : Spelling, a.Apart ∧ a.text = input) ∧
      ∀ a : Spelling, a.Apart → a.text = input → a.Unbracketed →
        (∀ userInfo fragment : Option (List Char), (∀ user ∈ userInfo, IsUserInfo user) →
          (a.respelled userInfo fragment).text.utf8ByteSize ≤ maxLength →
            Endpoint.read (a.respelled userInfo fragment).text = .ok e) ∧
        e = a.endpoint ∧
        ∀ tuning moves last effects,
          (Ensemble.ofSettings ⟨e, tuning⟩).run moves = some (last, effects) →
            last.manager.url = a.endpoint.url ∧
              ∀ record ∈ Effect.records effects, ∀ address ∈ record.address?,
                address = a.endpoint.url := by
  refine ⟨exists_spelling h, ?_⟩
  rintro a hapart rfl unbracketed
  have hmade := ((hapart.read_iff unbracketed).mp h).2.2.2.2
  refine ⟨?_, hmade, ?_⟩
  · intro userInfo fragment admitted short
    exact hapart.read_respelled unbracketed h admitted short
  · intro tuning moves last effects hrun
    have haddress := Ensemble.address_of_run hrun
    rw [← hmade]
    exact haddress

/-- A password with a colon in it is left out, and so is a fragment. -/
theorem read_ignores_credentials_password :
    let a : Spelling := ⟨.wss, some "me:a:80".toList, "[::1]:81".toList, "/chat".toList,
      some "top".toList⟩
    let e : Endpoint := ⟨.wss, "[::1]", 81, "/chat"⟩
    a.text = "wss://me:a:80@[::1]:81/chat#top" ∧ Endpoint.read a.text = .ok e ∧
      (a.respelled (some "you%:@".toList) none).text = "wss://you%:@@[::1]:81/chat" ∧
      Endpoint.read (a.respelled (some "you%:@".toList) none).text = .ok e ∧ e = a.endpoint := by
  intro a e
  have hread : Endpoint.read a.text = .ok e := by decide +kernel
  have hinside : a.authority.all (!endsAuthority ·) = true := by decide +kernel
  have hpath : a.path.head? = some '/' := by decide +kernel
  have hapart : a.Apart := by
    refine ⟨fun c hmem => by simpa using List.all_eq_true.mp hinside c hmem, by decide +kernel,
      fun c hc => ?_, by decide +kernel⟩
    obtain rfl := Option.some.inj (hpath.symm.trans hc)
    rfl
  have unbracketed : a.Unbracketed := by
    intro user hmem
    obtain rfl := Option.some.inj hmem
    decide
  have admitted : ∀ user ∈ some "you%:@".toList, IsUserInfo user := by
    intro user hmem
    obtain rfl := Option.some.inj hmem
    have hadmitted : "you%:@".toList.all (fun c => isAuthorityChar c || c == '%') = true := by
      decide +kernel
    refine ⟨fun c hmem => by simpa using List.all_eq_true.mp hadmitted c hmem, by decide, by decide,
      fun row hrow _ => ?_⟩
    exact (hrow.sublist.count_le ':').trans (by decide)
  obtain ⟨hother, hmade, -⟩ :=
    (read_ignores_credentials hread).2 a hapart rfl unbracketed
  exact ⟨by decide +kernel, hread, by decide +kernel, hother _ none admitted (by decide +kernel),
    hmade⟩

end Endpoint

end PersistentLink
