import PersistentLink.Uri.Authority

/-!
# URI references

A text is split into scheme, authority, and path with query. The fragment is dropped without
being looked at. Three forms are told apart: `*` or a path alone, an authority alone, and the
absolute form `scheme://authority/path?query`.

## Main definitions

- `Reference`: the parts
- `splitScheme`: the scheme in front of `://`, if there is one
- `checkPath`: path and query up to the fragment
- `Reference.parse`: the recogniser
-/

namespace PersistentLink.Uri

/-- The parts of a URI. -/
structure Reference where
  /-- the scheme, if the text is in absolute form -/
  scheme : Option (List Char)
  /-- the authority, empty if the text is a path alone -/
  authority : List Char
  /-- path and query, without the fragment -/
  path : List Char
  deriving DecidableEq, Repr, Inhabited

/-- So many octets may a URI have. -/
def maxLength : Nat := 65534

/-- So many characters may a scheme have, apart from the two known by name. -/
def maxScheme : Nat := 64

/-- The number of octets of a text in UTF-8. -/
def octets (text : List Char) : Nat :=
  text.foldl (fun count c => count + c.utf8Size) 0

/-- Whether the text begins with the given lower-case letters and marks, in either case. -/
def startsWithCaseless (start text : List Char) : Bool :=
  start.isPrefixOf (text.map Char.toLower)

/-- Splits the scheme and `://` off. The schemes of the web are recognised in either case and
given in lower case; any other keeps its case. A text in which something else stands first has
no scheme. -/
def splitScheme (text : List Char) : Except Fault (Option (List Char × List Char)) :=
  if startsWithCaseless "http://".toList text then .ok (some ("http".toList, text.drop 7))
  else if startsWithCaseless "https://".toList text then .ok (some ("https".toList, text.drop 8))
  else
    match text.span isSchemeChar with
    | (scheme, ':' :: '/' :: '/' :: rest) =>
      if text.length ≤ 3 then .ok none
      else if maxScheme < scheme.length then .error .schemeTooLong
      else .ok (some (scheme, rest))
    | _ => .ok none

/-- Admits a path with query and drops the fragment. An empty path stands for the root. -/
def checkPath (text : List Char) : Except Fault (List Char) :=
  let kept := text.takeWhile (· != '#')
  let (path, query) := kept.span (· != '?')
  if path.all isPathChar && (query.drop 1).all isQueryChar then
    .ok (if kept.isEmpty then ['/'] else kept)
  else .error .invalidCharacter

namespace Reference

/-- A text without a scheme is an authority and nothing else. -/
def ofAuthority (text : List Char) : Except Fault Reference := do
  let authority := text.takeWhile (!endsAuthority ·)
  checkAuthority authority
  if authority.length = text.length then .ok ⟨none, authority, []⟩
  else if text.length = 1 then .error .invalidCharacter
  else .error .invalidFormat

/-- What follows `scheme://`. -/
def ofAbsolute (scheme text : List Char) : Except Fault Reference := do
  if text.isEmpty then .error .empty
  let (authority, rest) := text.span (!endsAuthority ·)
  checkAuthority authority
  if authority.isEmpty then .error .invalidFormat
  let path ← checkPath rest
  .ok ⟨some scheme, authority, path⟩

/-- Splits a text into the parts of a URI, or reports its first fault. -/
def parse (text : List Char) : Except Fault Reference := do
  if maxLength < octets text then .error .tooLong
  match text with
  | [] => .error .empty
  | ['*'] => .ok ⟨none, [], ['*']⟩
  | '/' :: _ =>
    let path ← checkPath text
    .ok ⟨none, [], path⟩
  | _ =>
    match ← splitScheme text with
    | none => ofAuthority text
    | some (scheme, rest) => ofAbsolute scheme rest

end Reference

end PersistentLink.Uri
