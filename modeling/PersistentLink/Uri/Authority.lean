import PersistentLink.Uri.Fault
import PersistentLink.Uri.Character

/-!
# Authorities

An authority is `user@host:port`, where the user information and the port may be missing and
the host may be an address in square brackets. It is read from left to right with a small
memory: how many colons were seen, whether a percent sign was, and which brackets. Colons and
percent signs of the user information and of a bracketed address are forgotten, because only
those of the host and the port matter.

## Main definitions

- `AuthorityScan`: what is remembered while an authority is read
- `AuthorityScan.read`: the next character
- `checkAuthority`: whether a whole authority is admitted
- `hostOf`, `portTextOf`: its parts

## Design notes

The host is cut at the *first* colon after the user information and the port at the *last*
colon of the whole authority. For an admitted authority without brackets there is at most one
colon after the user information, so the two cuts are the same.
-/

namespace PersistentLink.Uri

/-- What is remembered of the part of an authority already read. -/
structure AuthorityScan where
  /-- colons since the start, the last `]` or the last `@` -/
  colons : Nat := 0
  /-- a percent sign was seen since the start, the last `]` or the last `@` -/
  percent : Bool := false
  /-- `[` was seen -/
  opened : Bool := false
  /-- `]` was seen -/
  closed : Bool := false
  /-- the last character was `@` -/
  atSign : Bool := false
  deriving DecidableEq, Repr, Inhabited

namespace AuthorityScan

/-- So many colons may stand in a row of counted ones: a full address has seven, its port one. -/
def maxColons : Nat := 8

/-- Reads one character. -/
def read (scan : AuthorityScan) (c : Char) : Except Fault AuthorityScan :=
  let scan := { scan with atSign := c == '@' }
  if c == ':' then
    if scan.colons < maxColons then .ok { scan with colons := scan.colons + 1 }
    else .error .invalidAuthority
  else if c == '[' then
    if scan.percent || scan.opened then .error .invalidAuthority
    else .ok { scan with opened := true }
  else if c == ']' then
    if !scan.opened || scan.closed then .error .invalidAuthority
    else .ok { scan with closed := true, colons := 0, percent := false }
  else if c == '@' then
    .ok { scan with colons := 0, percent := false }
  else if c == '%' then
    .ok { scan with percent := true }
  else if isAuthorityChar c then .ok scan
  else .error .invalidCharacter

/-- Whether an authority may end here: brackets are paired, at most one colon is left for the
port, a host follows the user information, and the host has no percent sign. -/
def mayEnd (scan : AuthorityScan) : Bool :=
  scan.opened == scan.closed && scan.colons ≤ 1 && !scan.atSign && !scan.percent

end AuthorityScan

/-- Reads an authority from its start to its end. -/
def scanAuthority (authority : List Char) : Except Fault AuthorityScan :=
  authority.foldlM AuthorityScan.read {}

/-- Admits an authority, or reports its first fault. -/
def checkAuthority (authority : List Char) : Except Fault Unit := do
  let scan ← scanAuthority authority
  if scan.mayEnd then .ok () else .error .invalidAuthority

/-- The part of a text after the last occurrence of a character, or all of it. -/
def afterLast (mark : Char) (text : List Char) : List Char :=
  (text.reverse.takeWhile (· != mark)).reverse

/-- The part of an authority after its user information. -/
def hostAndPort (authority : List Char) : List Char :=
  afterLast '@' authority

/-- The host: a bracketed address with its brackets, or everything before the first colon. -/
def hostOf (authority : List Char) : List Char :=
  match hostAndPort authority with
  | '[' :: rest => '[' :: (rest.takeWhile (· != ']') ++ (rest.dropWhile (· != ']')).take 1)
  | text => text.takeWhile (· != ':')

/-- The text after the last colon of the authority, if it has one. -/
def portTextOf (authority : List Char) : Option (List Char) :=
  if authority.contains ':' then some (afterLast ':' authority) else none

end PersistentLink.Uri
