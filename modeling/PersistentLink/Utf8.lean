import PersistentLink.Payload

/-!
# Reading UTF-8

A text arrives as octets, possibly in several parts that are cut anywhere. The decoder reads one
octet at a time, so a text is refused at the first octet that rules it out, whichever part that
octet is in.

## Main definitions

- `Utf8.Pending`: a character of which octets are still to come
- `Utf8.Decoder`: the text read so far, and the character begun
- `Utf8.Decoder.read`, `Utf8.Decoder.readAll`: the next octets
- `Utf8.decode`: a whole text

## Design notes

The first octet of a character fixes how many octets follow and between which bounds the second
one lies. The bounds rule out the surrogates, the longer spellings of a shorter character, and
what lies beyond the last code point, so every value that is completed is one of a character.
-/

namespace PersistentLink.Utf8

/-- A character of which some octets were read. -/
structure Pending where
  /-- so many octets are still to come -/
  owed : Nat
  /-- the bits of the character read so far -/
  value : Nat
  /-- least value of the next octet -/
  low : Nat := 0x80
  /-- greatest value of the next octet -/
  high : Nat := 0xBF
  deriving DecidableEq, Repr

/-- What the first octet of a character says about it; nothing if no character begins so. -/
def Pending.ofFirst (octet : UInt8) : Option Pending :=
  let n := octet.toNat
  if n < 0x80 then some { owed := 0, value := n }
  else if n < 0xC2 then none
  else if n < 0xE0 then some { owed := 1, value := n - 0xC0 }
  else if n < 0xF0 then
    some
      { owed := 2
        value := n - 0xE0
        low := if n = 0xE0 then 0xA0 else 0x80
        high := if n = 0xED then 0x9F else 0xBF }
  else if n < 0xF5 then
    some
      { owed := 3
        value := n - 0xF0
        low := if n = 0xF0 then 0x90 else 0x80
        high := if n = 0xF4 then 0x8F else 0xBF }
  else none

/-- What is known after one more octet; nothing if the octet cannot follow. -/
def Pending.follow (pending : Pending) (octet : UInt8) : Option Pending :=
  let n := octet.toNat
  if pending.low ≤ n ∧ n ≤ pending.high then
    some { owed := pending.owed - 1, value := pending.value * 64 + (n - 0x80) }
  else none

/-- A text of which a part was read. -/
structure Decoder where
  /-- the characters that are complete -/
  text : String := ""
  /-- the character that was begun -/
  pending : Option Pending := none
  /-- octets read -/
  size : Nat := 0
  deriving DecidableEq, Repr, Inhabited

namespace Decoder

/-- Takes a character up, which may be complete already. -/
def take (decoder : Decoder) (pending : Pending) : Decoder :=
  if pending.owed = 0 then
    { text := decoder.text.push (Char.ofNat pending.value)
      pending := none
      size := decoder.size + 1 }
  else { decoder with pending := some pending, size := decoder.size + 1 }

/-- Reads an octet; nothing if no text goes on so. -/
def read (decoder : Decoder) (octet : UInt8) : Option Decoder :=
  (match decoder.pending with
    | none => Pending.ofFirst octet
    | some pending => pending.follow octet).map decoder.take

/-- Reads octets in order. -/
def readAll (decoder : Decoder) (octets : Bytes) : Option Decoder :=
  octets.foldlM read decoder

/-- The text, if it ends here. -/
def finish (decoder : Decoder) : Option String :=
  if decoder.pending.isNone then some decoder.text else none

end Decoder

/-- The text that octets spell, if they spell one. -/
def decode (octets : Bytes) : Option String :=
  (({} : Decoder).readAll octets).bind (·.finish)

/-- The octets that spell a text. -/
def encode (text : String) : Bytes :=
  text.toUTF8.toList

end PersistentLink.Utf8
