import PersistentLink.Failure.Basic
import PersistentLink.Proofs.Endpoint.Port
import PersistentLink.Proofs.Uri.Reference

/-!
# Reading an endpoint's own address

The address of an endpoint is put together from its parts, some of which were left out of the text
it was read from, filled in or moved. It is read as the same endpoint if it is an address at all.

## Main definitions

- `Endpoint.NamedBy`: what a URI says about the endpoint that is read from it
- `Endpoint.Readable`: the endpoints whose address can be read

## Main results

- `Endpoint.ofReference_eq_ok_iff`: an endpoint is read from the URIs that name it
- `Endpoint.parse_url`: what the address of an endpoint is read as
- `Endpoint.read_url_iff`: which endpoints are read from their own address
-/

namespace PersistentLink

open Uri

namespace Endpoint

/-- What a URI says about the endpoint that is read from it. -/
structure NamedBy (e : Endpoint) (uri : Reference) : Prop where
  scheme_eq : uri.scheme = some e.scheme.name.toList
  host_eq : e.host.toList = hostOf uri.authority
  host_ne : e.host.toList ≠ []
  port_eq : e.port = ((portTextOf uri.authority).bind readPort).getD e.scheme.defaultPort
  path_eq : e.path = rooted (String.ofList uri.path)

variable {e : Endpoint} {uri : Reference} {text : String}

theorem ofName?_eq_some_iff {name : String} {scheme : Scheme} :
    Scheme.ofName? name = some scheme ↔ name = scheme.name := by
  constructor
  · intro h
    unfold Scheme.ofName? at h
    split at h
    · obtain rfl := Option.some.inj h
      rfl
    · obtain rfl := Option.some.inj h
      rfl
    · cases h
  · rintro rfl
    exact Scheme.ofName?_name scheme

theorem ofReference_of_scheme {scheme : Scheme} (h : uri.scheme = some scheme.name.toList) :
    ofReference uri =
      if hostOf uri.authority = [] then .error .missingHost
      else .ok (ofParts scheme (String.ofList (hostOf uri.authority))
        (((portTextOf uri.authority).bind readPort).getD scheme.defaultPort)
        (String.ofList uri.path)) := by
  unfold ofReference
  simp only [h, String.ofList_toList, Scheme.ofName?_name]
  cases hostOf uri.authority <;> rfl

theorem exists_scheme_of_ofReference (h : ofReference uri = .ok e) :
    ∃ scheme : Scheme, uri.scheme = some scheme.name.toList := by
  unfold ofReference at h
  split at h
  · rename_i name hname
    cases hscheme : Scheme.ofName? (String.ofList name) with
    | none => simp [hscheme] at h
    | some scheme =>
      refine ⟨scheme, ?_⟩
      rw [hname, ← ofName?_eq_some_iff.mp hscheme, String.toList_ofList]
  · cases h

/-- An endpoint is read from the URIs that name it. -/
theorem ofReference_eq_ok_iff : ofReference uri = .ok e ↔ e.NamedBy uri := by
  constructor
  · intro h
    obtain ⟨scheme, hscheme⟩ := exists_scheme_of_ofReference h
    rw [ofReference_of_scheme hscheme] at h
    split at h
    · cases h
    · rename_i hhost
      obtain rfl := Except.ok.inj h
      exact ⟨hscheme, by simp [ofParts], by simpa [ofParts] using hhost, rfl, rfl⟩
  · intro h
    have hhost : hostOf uri.authority ≠ [] := h.host_eq ▸ h.host_ne
    rw [ofReference_of_scheme h.scheme_eq, if_neg hhost, ← h.port_eq, ofParts, ← h.path_eq,
      ← h.host_eq, String.ofList_toList]

theorem exists_namedBy_of_parse (h : Endpoint.parse text = .ok e) :
    ∃ uri, Reference.parse text.toList = .ok uri ∧ e.NamedBy uri := by
  unfold Endpoint.parse at h
  cases huri : Reference.parse text.toList with
  | error fault => simp [huri, Except.mapError, bind, Except.bind] at h
  | ok uri =>
    rw [huri] at h
    exact ⟨uri, rfl, ofReference_eq_ok_iff.mp h⟩

theorem toList_url (e : Endpoint) :
    e.url.toList = e.scheme.name.toList ++ ':' :: '/' :: '/' ::
      ((e.host.toList ++ ':' :: Nat.toDigits 10 e.port.toNat) ++ e.path.toList) := by
  simp [url]

theorem splitScheme_name (scheme : Scheme) (rest : List Char) :
    splitScheme (scheme.name.toList ++ ':' :: '/' :: '/' :: rest) =
      .ok (some (scheme.name.toList, rest)) := by
  cases scheme
  · rfl
  · rfl

/-- The URI that an endpoint's address is split into. -/
def reference (e : Endpoint) : Reference where
  scheme := some e.scheme.name.toList
  authority := e.host.toList ++ ':' :: Nat.toDigits 10 e.port.toNat
  path := e.path.toList

theorem isDigit_of_mem_port {port : UInt16} : ∀ c ∈ Nat.toDigits 10 port.toNat, c.isDigit = true :=
  fun _ => Nat.isDigit_of_mem_toDigits (by decide) (by decide)

/-- The path of an endpoint that was read begins with a slash, and passes the check again. -/
theorem NamedBy.path (h : e.NamedBy uri) (checked : CheckedPath uri.path) :
    CheckedPath e.path.toList ∧ ∃ rest, e.path.toList = '/' :: rest := by
  rw [h.path_eq, rooted.eq_def]
  split
  · rename_i rest hslash
    refine ⟨?_, rest, hslash⟩
    simpa using checked
  · refine ⟨?_, uri.path, ?_⟩
    · simpa using checked.cons_slash
    · simp

theorem parse_name (scheme : Scheme) (rest : List Char)
    (hshort : ¬maxLength < octets (scheme.name.toList ++ ':' :: '/' :: '/' :: rest)) :
    Reference.parse (scheme.name.toList ++ ':' :: '/' :: '/' :: rest) =
      Reference.ofAbsolute scheme.name.toList rest := by
  refine Reference.parse_of_splitScheme ⟨'w', ?_, by decide⟩ (splitScheme_name scheme rest) hshort
  cases scheme <;> rfl

theorem not_endsAuthority (h : e.NamedBy uri) (absolute : uri.Absolute e.scheme.name.toList) :
    ∀ c ∈ e.reference.authority, endsAuthority c = false := by
  intro c hmem
  obtain hhost | hport := List.mem_append.mp hmem
  · rw [h.host_eq] at hhost
    exact absolute.inside c (mem_of_mem_hostOf hhost)
  · obtain rfl | hdigit := List.mem_cons.mp hport
    · rfl
    · have hplain : c ≠ '/' ∧ c ≠ '?' ∧ c ≠ '#' := by
        refine ⟨?_, ?_, ?_⟩ <;> rintro rfl <;>
          exact absurd (isDigit_of_mem_port _ hdigit) (by decide)
      simp [endsAuthority, hplain]

/-- The address of an endpoint is split into its parts, if they are admitted as an authority. -/
theorem parse_url (h : e.NamedBy uri) (absolute : uri.Absolute e.scheme.name.toList)
    (hshort : e.url.utf8ByteSize ≤ maxLength) :
    Reference.parse e.url.toList =
      (checkAuthority e.reference.authority).map fun _ => e.reference := by
  obtain ⟨hchecked, rest, hpath⟩ := h.path absolute.checkedPath
  have hoctets : ¬maxLength < octets e.url.toList := by
    rw [octets_eq, String.ofList_toList]
    exact Nat.not_lt.mpr hshort
  have hauthority : e.reference.authority ≠ [] := by simp [reference]
  have hslash : endsAuthority '/' = true := rfl
  have hsplit : Reference.ofAbsolute e.scheme.name.toList (e.reference.authority ++ e.path.toList) =
      (checkAuthority e.reference.authority).bind fun _ =>
        (checkPath e.path.toList).map (⟨some e.scheme.name.toList, e.reference.authority, ·⟩) := by
    rw [hpath]
    exact Reference.ofAbsolute_append (not_endsAuthority h absolute) hauthority
      (by simpa using hslash)
  rw [toList_url] at hoctets ⊢
  rw [parse_name _ _ hoctets]
  refine hsplit.trans ?_
  rw [hchecked.checkPath_eq]
  cases checkAuthority e.reference.authority <;> rfl

theorem rooted_of_slash {path : String} {rest : List Char} (h : path.toList = '/' :: rest) :
    rooted path = path := by
  rw [rooted.eq_def, h]
  rfl

theorem rooted_rooted (path : String) : rooted (rooted path) = rooted path := by
  rw [rooted.eq_def path]
  split
  · rename_i rest hslash
    exact rooted_of_slash hslash
  · have hslash : ("/" ++ path).toList = '/' :: path.toList := by simp
    exact rooted_of_slash hslash

/-- An endpoint is named by its own address, if its brackets are paired. -/
theorem NamedBy.self (h : e.NamedBy uri)
    (paired : '[' ∈ e.host.toList ↔ ']' ∈ e.host.toList) : e.NamedBy e.reference where
  scheme_eq := rfl
  host_eq := by
    rw [h.host_eq] at paired
    rw [reference, h.host_eq, hostOf_host_port paired isDigit_of_mem_port]
  host_ne := h.host_ne
  port_eq := by
    rw [reference, portTextOf_host_port _ isDigit_of_mem_port, Option.bind_some, readPort_toDigits]
    rfl
  path_eq := by
    rw [reference, String.ofList_toList, h.path_eq, rooted_rooted]

/-- The endpoints whose address can be read: it is not too long, and the host would be admitted in
an authority of its own. -/
structure Readable (e : Endpoint) : Prop where
  short : e.url.utf8ByteSize ≤ 65534
  paired : '[' ∈ e.host.toList ↔ ']' ∈ e.host.toList
  /-- a percent sign stands in brackets only -/
  escaped : '%' ∈ e.host.toList → ']' ∈ e.host.toList

theorem NamedBy.checkAuthority_iff (h : e.NamedBy uri)
    (absolute : uri.Absolute e.scheme.name.toList) :
    checkAuthority e.reference.authority = .ok () ↔
      ('[' ∈ e.host.toList ↔ ']' ∈ e.host.toList) ∧
        ('%' ∈ e.host.toList → ']' ∈ e.host.toList) := by
  rw [reference, h.host_eq]
  exact checkAuthority_host_port_iff absolute.checked isDigit_of_mem_port

/-- The address of an endpoint that can be read names the endpoint. -/
theorem parse_url_of_readable (h : e.NamedBy uri) (absolute : uri.Absolute e.scheme.name.toList)
    (readable : e.Readable) : Endpoint.parse e.url = .ok e := by
  have hauthority := (h.checkAuthority_iff absolute).mpr ⟨readable.paired, readable.escaped⟩
  have hreference : Reference.parse e.url.toList = .ok e.reference := by
    rw [parse_url h absolute readable.short, hauthority]
    rfl
  rw [Endpoint.parse, hreference]
  exact ofReference_eq_ok_iff.mpr (h.self readable.paired)

/-- Any other address is no URI. -/
theorem exists_parse_url_of_not_readable (h : e.NamedBy uri)
    (absolute : uri.Absolute e.scheme.name.toList) (unreadable : ¬e.Readable) :
    ∃ fault, Endpoint.parse e.url = .error fault := by
  have hreference : ∃ fault, Reference.parse e.url.toList = .error fault := by
    by_cases hshort : e.url.utf8ByteSize ≤ maxLength
    · rw [parse_url h absolute hshort]
      cases hauthority : checkAuthority e.reference.authority with
      | error fault => exact ⟨fault, rfl⟩
      | ok =>
        obtain ⟨paired, escaped⟩ := (h.checkAuthority_iff absolute).mp hauthority
        exact absurd ⟨hshort, paired, escaped⟩ unreadable
    · refine ⟨.tooLong, Reference.parse_of_long ?_⟩
      rw [octets_eq, String.ofList_toList]
      exact Nat.not_le.mp hshort
  obtain ⟨fault, hfault⟩ := hreference
  refine ⟨.uri fault, ?_⟩
  rw [Endpoint.parse, hfault]
  rfl

theorem read_eq_ok_iff : Endpoint.read text = .ok e ↔ Endpoint.parse text = .ok e := by
  rw [Endpoint.read]
  cases Endpoint.parse text <;> simp [Except.mapError]

theorem exists_read_of_parse {fault : EndpointFault} (h : Endpoint.parse text = .error fault) :
    ∃ detail, Endpoint.read text = .error (.invalidEndpoint detail) := by
  rw [Endpoint.read, h]
  exact ⟨_, rfl⟩

/-- **The address of an endpoint is read as that endpoint, or not at all.** An endpoint that was
read from some text is read again from its own address exactly if the address is no longer than
65534 octets, and the brackets in its host are paired, and there is no percent sign in the host
without them. Otherwise the address is refused. -/
theorem read_url_iff (h : Endpoint.read text = .ok e) :
    (Endpoint.read e.url = .ok e ↔ e.Readable) ∧
      (¬e.Readable → ∃ detail, Endpoint.read e.url = .error (.invalidEndpoint detail)) := by
  obtain ⟨uri, huri, hnamed⟩ := exists_namedBy_of_parse (read_eq_ok_iff.mp h)
  have absolute := Reference.absolute_of_parse huri hnamed.scheme_eq
  have hrefused (unreadable : ¬e.Readable) :
      ∃ detail, Endpoint.read e.url = .error (.invalidEndpoint detail) := by
    obtain ⟨fault, hfault⟩ := exists_parse_url_of_not_readable hnamed absolute unreadable
    exact exists_read_of_parse hfault
  refine ⟨⟨fun hread => ?_, fun readable => ?_⟩, hrefused⟩
  · by_contra unreadable
    obtain ⟨detail, hdetail⟩ := hrefused unreadable
    rw [hread] at hdetail
    cases hdetail
  · exact read_eq_ok_iff.mpr (parse_url_of_readable hnamed absolute readable)

/-- A bracketed address and a port that is missing are read again; a host from which the bracket
that opens was cut off, with the user information, is not. -/
theorem read_url_iff_cut :
    let kept : Endpoint := ⟨.wss, "[::1%25eth0]", 443, "/?room=1"⟩
    let cut : Endpoint := ⟨.ws, "a]", 80, "/"⟩
    (Endpoint.read "wss://user:pw@[::1%25eth0]?room=1#top" = .ok kept ∧
      Endpoint.read kept.url = .ok kept) ∧
      Endpoint.read "ws://[@a]" = .ok cut ∧
        ∃ detail, Endpoint.read cut.url = .error (.invalidEndpoint detail) := by
  intro kept cut
  have hkept : Endpoint.read "wss://user:pw@[::1%25eth0]?room=1#top" = .ok kept := by decide +kernel
  have hcut : Endpoint.read "ws://[@a]" = .ok cut := by decide +kernel
  have hreadable : kept.Readable := ⟨by decide +kernel, by decide, by decide⟩
  have hunreadable : ¬cut.Readable := fun h => absurd h.paired (by decide)
  exact ⟨⟨hkept, (read_url_iff hkept).1.mpr hreadable⟩, hcut, (read_url_iff hcut).2 hunreadable⟩

end Endpoint

end PersistentLink
