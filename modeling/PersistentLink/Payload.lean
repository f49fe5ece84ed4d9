/-!
# Payloads

A payload is one application message: text, or a sequence of octets. The connection
never looks inside one; the only thing it reads off a payload is how many octets it
takes on the wire.

## Main definitions

- `Payload`: a text or binary message
- `Payload.size`: its length in octets
- `Payload.text?`: the text of a text payload
-/

namespace PersistentLink

/-- An octet string. -/
abbrev Bytes := List UInt8

/-- One message travelling over a link, in either direction. -/
inductive Payload
  /-- a message of Unicode text -/
  | text (content : String)
  /-- a message of raw octets -/
  | binary (content : Bytes)
  deriving DecidableEq, Repr, Inhabited

namespace Payload

/-- The length in octets; text is measured in its UTF-8 form. -/
def size : Payload → Nat
  | text content => content.utf8ByteSize
  | binary content => content.length

/-- A payload without a single octet. Text and binary payloads may both be empty. -/
def isEmpty (payload : Payload) : Bool :=
  payload.size == 0

/-- The content of a text payload, and nothing for a binary one. -/
def text? : Payload → Option String
  | text content => some content
  | binary _ => none

@[simp]
theorem isEmpty_iff (payload : Payload) : payload.isEmpty = true ↔ payload.size = 0 := by
  simp [isEmpty]

end Payload

end PersistentLink
