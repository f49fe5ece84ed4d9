import PersistentLink.Proofs.Endpoint.RoundTrip

/-!
# What an endpoint keeps of the host and the port

The host of an endpoint and its port are cut out of the same part of the authority, which begins
after the user information: the host from the front, and the port from the back. What lies between
the two cuts is lost, and so is a port that is no number of a port.

## Main definitions

- `EndsInPort`: the port that a text ends in
- `Endpoint.AccountsFor`: an endpoint keeps all that a text says of host and port

## Main results

- `Endpoint.NamedBy.portFrom_of_hostCut`: the port is cut out of what follows the host
- `Endpoint.read_host_port`: which texts of host and port an endpoint accounts for
-/

namespace PersistentLink

open Uri

/-- A text ends in a port: a colon, and the number of the port. -/
def EndsInPort (text : List Char) (port : UInt16) : Prop :=
  ∃ before stated, text = before ++ ':' :: stated ∧ WritesNumber stated port.toNat

variable {text front rest host authority : List Char} {number : Nat} {port : UInt16} {c : Char}

theorem WritesNumber.unmarked (h : WritesNumber text number) (hmem : c ∈ text) :
    c ∉ [':', '[', ']', '@', '%'] := by
  obtain rfl | hdigit := h.plus_or_digit hmem
  · decide
  · exact unmarked_of_isDigit hdigit

theorem portTextOf_bind_eq_some_iff :
    (portTextOf text).bind readPort = some port ↔ EndsInPort text port := by
  rw [Option.bind_eq_some_iff]
  constructor
  · rintro ⟨stated, hstated, hport⟩
    obtain ⟨-, before, htext⟩ := portTextOf_eq_some_iff.mp hstated
    exact ⟨before, stated, htext, readPort_eq_some_iff.mp hport⟩
  · rintro ⟨before, stated, htext, hnumber⟩
    have hfree : ':' ∉ stated := fun hmem => hnumber.unmarked hmem (by simp)
    exact ⟨stated, portTextOf_eq_some_iff.mpr ⟨hfree, before, htext⟩,
      readPort_eq_some_iff.mpr hnumber⟩

/-- A port is stated once. -/
theorem EndsInPort.unique {other : UInt16} (h : EndsInPort text port)
    (hother : EndsInPort text other) : port = other := by
  rw [← portTextOf_bind_eq_some_iff] at h hother
  exact Option.some.inj (h.symm.trans hother)

theorem not_endsInPort_colon : ¬EndsInPort [':'] port := by
  intro h
  rw [← portTextOf_bind_eq_some_iff] at h
  cases h

/-- A port at the end of a text stands in its later part, if none of the colons in the earlier part
could begin it. -/
theorem EndsInPort.of_append (h : EndsInPort (front ++ rest) port)
    (marked : ∀ before after, front = before ++ ':' :: after → ']' ∈ after ∨ '@' ∈ after) :
    EndsInPort rest port := by
  obtain ⟨before, stated, htext, hnumber⟩ := h
  obtain ⟨after, -, hrest⟩ | ⟨after, hfront, hafter⟩ := List.append_eq_append_iff.mp htext
  · exact ⟨after, stated, hrest, hnumber⟩
  · obtain ⟨rfl, hrest⟩ | ⟨inside, rfl, rfl⟩ := List.cons_eq_append_iff.mp hafter
    · exact ⟨[], stated, hrest, hnumber⟩
    · -- the number would have a bracket or an at sign in it
      obtain hmem | hmem := marked before inside hfront
      · exact absurd (by simp) (hnumber.unmarked (List.mem_append_left rest hmem))
      · exact absurd (by simp) (hnumber.unmarked (List.mem_append_left rest hmem))

theorem EndsInPort.append_left (h : EndsInPort rest port) (front : List Char) :
    EndsInPort (front ++ rest) port := by
  obtain ⟨before, stated, rfl, hnumber⟩ := h
  exact ⟨front ++ before, stated, by simp, hnumber⟩

/-- A mark after which there is no colon stands after each colon. -/
theorem mem_of_colon {mark : Char} {before later after : List Char} (hmark : mark ≠ ':')
    (uncut : ':' ∉ later) (h : front ++ mark :: later = before ++ ':' :: after) : mark ∈ after := by
  obtain ⟨middle, rfl, hlater⟩ | ⟨middle, rfl, hafter⟩ := List.append_eq_append_iff.mp h
  · obtain ⟨rfl, hcons⟩ | ⟨inside, rfl, rfl⟩ := List.cons_eq_append_iff.mp hlater
    · exact absurd (List.cons.inj hcons).1.symm hmark
    · exact absurd (by simp) uncut
  · obtain ⟨rfl, hcons⟩ | ⟨inside, rfl, rfl⟩ := List.cons_eq_append_iff.mp hafter
    · exact absurd (List.cons.inj hcons).1 hmark
    · simp

/-- The port at the end of an authority stands in what follows the host. -/
theorem Uri.HostCut.endsInPort_iff (h : HostCut (hostAndPort authority) host rest)
    (hchecked : checkAuthority authority = .ok ()) :
    EndsInPort authority port ↔ EndsInPort rest port := by
  obtain ⟨userInfo, hsplit, hend⟩ := exists_userInfo authority
  rw [h.eq_append, ← List.append_assoc] at hsplit
  rw [hsplit]
  refine ⟨fun hends => hends.of_append ?_, fun hends => hends.append_left (userInfo ++ host)⟩
  intro before after hcolon
  obtain ⟨address, -, rfl⟩ | ⟨uncut, -⟩ := h.closes hchecked
  · rw [← List.cons_append, ← List.append_assoc] at hcolon
    exact .inl (mem_of_colon (by decide) List.not_mem_nil hcolon)
  · obtain rfl | ⟨user, rfl⟩ := hend
    · rw [List.nil_append] at hcolon
      exact absurd (by simp [hcolon]) uncut
    · rw [List.append_assoc] at hcolon
      exact .inr (mem_of_colon (by decide) uncut hcolon)

/-- No port is read in front of the host. -/
theorem Uri.HostCut.port_eq (h : HostCut (hostAndPort authority) host rest)
    (hchecked : checkAuthority authority = .ok ()) :
    (portTextOf authority).bind readPort = (portTextOf rest).bind readPort := by
  refine Option.ext fun port => ?_
  rw [portTextOf_bind_eq_some_iff, portTextOf_bind_eq_some_iff]
  exact h.endsInPort_iff hchecked

namespace Endpoint

/-- An endpoint keeps all that a text says of host and port: the text is the host, or the host and
after a colon either nothing, where the port is that of the scheme, or the number of the port. -/
def AccountsFor (e : Endpoint) (hostPort : List Char) : Prop :=
  hostPort = e.host.toList ∨ ∃ stated, hostPort = e.host.toList ++ ':' :: stated ∧
    (stated = [] ∧ e.port = e.scheme.defaultPort ∨ WritesNumber stated e.port.toNat)

/-- The port of an endpoint is the one that a text ends in, or that of the scheme. -/
def PortFrom (e : Endpoint) (rest : List Char) : Prop :=
  EndsInPort rest e.port ∨
    (∀ port, ¬EndsInPort rest port) ∧ e.port = e.scheme.defaultPort

/-- What may follow the host without being lost: nothing, or a colon and nothing or the number of a
port. -/
def Keepable (rest : List Char) : Prop :=
  rest = [] ∨ rest = [':'] ∨ ∃ (stated : List Char) (port : UInt16),
    rest = ':' :: stated ∧ WritesNumber stated port.toNat

variable {e : Endpoint} {uri : Reference} {input : String}

theorem portFrom_of_bind
    (h : e.port = ((portTextOf rest).bind readPort).getD e.scheme.defaultPort) :
    e.PortFrom rest := by
  cases hport : (portTextOf rest).bind readPort with
  | some port =>
    rw [hport] at h
    exact .inl (h ▸ portTextOf_bind_eq_some_iff.mp hport)
  | none =>
    rw [hport] at h
    refine .inr ⟨fun port hends => ?_, h⟩
    rw [portTextOf_bind_eq_some_iff.mpr hends] at hport
    cases hport

/-- The port is cut out of what follows the host. -/
theorem NamedBy.portFrom_of_hostCut (h : e.NamedBy uri)
    (absolute : uri.Absolute e.scheme.name.toList)
    (hcut : HostCut (hostAndPort uri.authority) (hostOf uri.authority) rest) :
    e.PortFrom rest :=
  portFrom_of_bind (hcut.port_eq absolute.checked ▸ h.port_eq)

/-- The endpoint accounts for the host and what follows it exactly if nothing of the latter is
lost. -/
theorem PortFrom.accountsFor_iff (h : e.PortFrom rest) :
    e.AccountsFor (e.host.toList ++ rest) ↔ Keepable rest := by
  have hports {stated : List Char} {port : UInt16} (hnumber : WritesNumber stated port.toNat) :
      EndsInPort (':' :: stated) port := ⟨[], stated, rfl, hnumber⟩
  simp only [AccountsFor, List.append_right_eq_self, List.append_cancel_left_eq]
  constructor
  · rintro (hnil | ⟨stated, rfl, ⟨rfl, -⟩ | hnumber⟩)
    · exact .inl hnil
    · exact .inr (.inl rfl)
    · exact .inr (.inr ⟨stated, e.port, rfl, hnumber⟩)
  · rintro (hnil | rfl | ⟨stated, port, rfl, hnumber⟩)
    · exact .inl hnil
    · refine .inr ⟨[], rfl, .inl ⟨rfl, ?_⟩⟩
      obtain hends | ⟨-, hdefault⟩ := h
      · exact absurd hends not_endsInPort_colon
      · exact hdefault
    · refine .inr ⟨stated, rfl, .inr ?_⟩
      obtain hends | ⟨hnone, -⟩ := h
      · rwa [hends.unique (hports hnumber)]
      · exact absurd (hports hnumber) (hnone port)

/-- **What is kept of the host and the port.** The part of the authority after the user information
is the host of the endpoint and a rest, and the port is the one that the rest ends in, or else that
of the scheme. The rest begins with a colon, unless the host is a bracketed address. All of it is
kept exactly if it is nothing, or a colon and nothing or the number of a port; of any other rest the
endpoint tells nothing but the port. -/
theorem read_host_port (h : Endpoint.read input = .ok e) :
    ∃ uri rest, Reference.parse input.toList = .ok uri ∧
      hostAndPort uri.authority = e.host.toList ++ rest ∧ e.PortFrom rest ∧
      ((∃ address, e.host.toList = '[' :: (address ++ [']'])) ∨
        rest = [] ∨ ∃ stated, rest = ':' :: stated) ∧
      (e.AccountsFor (hostAndPort uri.authority) ↔ Keepable rest) := by
  obtain ⟨uri, huri, hnamed⟩ := exists_namedBy_of_parse (read_eq_ok_iff.mp h)
  have absolute := Reference.absolute_of_parse huri hnamed.scheme_eq
  obtain ⟨rest, hcut⟩ := hostCut uri.authority
  have hport := hnamed.portFrom_of_hostCut absolute hcut
  have hwhole := hcut.eq_append
  have hshape := hcut.closes absolute.checked
  rw [← hnamed.host_eq] at hwhole hshape
  refine ⟨uri, rest, huri, hwhole, hport, ?_, ?_⟩
  · obtain ⟨address, -, haddress⟩ | ⟨-, hrest⟩ := hshape
    · exact .inl ⟨address, haddress⟩
    · exact .inr hrest
  · rw [hwhole]
    exact hport.accountsFor_iff

/-- The port that is stated is the one that is kept, but what stands between it and the address is
not. -/
theorem read_host_port_between :
    let e : Endpoint := ⟨.wss, "[::1]", 81, "/chat"⟩
    Endpoint.read "wss://user@[::1]x:81/chat" = .ok e ∧
      ∃ uri rest, Reference.parse "wss://user@[::1]x:81/chat".toList = .ok uri ∧
        hostAndPort uri.authority = e.host.toList ++ rest ∧ e.PortFrom rest ∧
        ((∃ address, e.host.toList = '[' :: (address ++ [']'])) ∨
          rest = [] ∨ ∃ stated, rest = ':' :: stated) ∧
        (e.AccountsFor (hostAndPort uri.authority) ↔ Keepable rest) := by
  intro e
  have hread : Endpoint.read "wss://user@[::1]x:81/chat" = .ok e := by decide +kernel
  exact ⟨hread, read_host_port hread⟩

/-- A port that is out of range is lost: the endpoint has the port of the scheme, as if none had
been stated. -/
theorem port_out_of_range_lost :
    let e : Endpoint := ⟨.ws, "h", 80, "/"⟩
    let uri : Reference := ⟨some "ws".toList, "h:99999".toList, "/".toList⟩
    Endpoint.read "ws://h:99999/" = .ok e ∧
      Reference.parse "ws://h:99999/".toList = .ok uri ∧
      ¬e.AccountsFor (hostAndPort uri.authority) := by
  intro e uri
  refine ⟨by decide +kernel, by decide +kernel, ?_⟩
  have hstated : hostAndPort uri.authority = e.host.toList ++ ':' :: "99999".toList := by
    decide +kernel
  rw [hstated]
  rintro (hhost | ⟨stated, htext, hport⟩)
  · simp at hhost
  · obtain rfl := (List.cons.inj (List.append_cancel_left htext)).2
    obtain ⟨hnil, -⟩ | hnumber := hport
    · exact absurd hnil (by decide)
    · exact absurd (readPort_eq_some_iff.mpr hnumber) (by decide +kernel)

end Endpoint

end PersistentLink
