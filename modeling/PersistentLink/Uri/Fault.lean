/-!
# Faults of a URI

Why a text is not accepted as a URI. A recogniser reports the first fault it meets, so each
text has one.

## Main definitions

- `Uri.Fault`: the reasons
- `Uri.Fault.message`: their wording
-/

namespace PersistentLink.Uri

/-- Why a text is no URI. -/
inductive Fault
  /-- the text takes more octets than a URI may have -/
  | tooLong
  /-- there is nothing where a URI or an authority should be -/
  | empty
  /-- the scheme is longer than a scheme may be -/
  | schemeTooLong
  /-- a character stands where no rule admits it -/
  | invalidCharacter
  /-- the authority is no combination of user information, host and port -/
  | invalidAuthority
  /-- the parts do not make up a URI -/
  | invalidFormat
  deriving DecidableEq, Repr

/-- The wording of a fault. -/
def Fault.message : Fault → String
  | tooLong => "uri too long"
  | empty => "empty string"
  | schemeTooLong => "scheme too long"
  | invalidCharacter => "invalid uri character"
  | invalidAuthority => "invalid authority"
  | invalidFormat => "invalid format"

end PersistentLink.Uri
