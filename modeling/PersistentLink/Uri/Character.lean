/-!
# Characters of a URI

Which characters may stand in the parts of a URI. Scheme and authority are ASCII; path and
query also admit every character outside of ASCII as it is, without percent encoding.

## Main definitions

- `isSchemeChar`, `isAuthorityChar`, `isPathChar`, `isQueryChar`: the classes
- `endsAuthority`: the characters at which an authority ends
-/

namespace PersistentLink.Uri

/-- The character's code point lies between the two bounds, both included. -/
def between (low high : Nat) (c : Char) : Bool :=
  low ≤ c.toNat && c.toNat ≤ high

/-- The ASCII letters and digits. -/
def isAlphanumeric (c : Char) : Bool :=
  between 0x30 0x39 c || between 0x41 0x5A c || between 0x61 0x7A c

/-- Letters, digits, plus, minus, full stop and tilde. -/
def isSchemeChar (c : Char) : Bool :=
  isAlphanumeric c || c == '+' || c == '-' || c == '.' || c == '~'

/-- Letters, digits and the punctuation of user information, host and port. The percent sign
is not among them: whether it is admitted depends on where it stands. -/
def isAuthorityChar (c : Char) : Bool :=
  isAlphanumeric c || c == '!' || c == '$' || between 0x26 0x2E c || c == ':' || c == ';' ||
    c == '=' || c == '@' || c == '[' || c == ']' || c == '_' || c == '~'

/-- An authority ends at the first of these, or at the end of the text. -/
def endsAuthority (c : Char) : Bool :=
  c == '/' || c == '?' || c == '#'

/-- Printable ASCII without the space, the angle brackets, the accent mark, and the two marks
that end a path; and everything beyond ASCII. -/
def isPathChar (c : Char) : Bool :=
  c == '!' || between 0x24 0x3B c || c == '=' || between 0x40 0x5F c || between 0x61 0x7A c ||
    c == '|' || c == '~' || c == '\x22' || c == '\x7b' || c == '\x7d' || 0x80 ≤ c.toNat

/-- Printable ASCII without the space, the double quote, the number sign and the angle brackets;
and everything beyond ASCII. -/
def isQueryChar (c : Char) : Bool :=
  c == '!' || between 0x24 0x3B c || c == '=' || between 0x3F 0x7E c || 0x80 ≤ c.toNat

end PersistentLink.Uri
