import PersistentLink.Failure.WebSocket
import PersistentLink.Payload

/-!
# The head of an HTTP response

The server answers the opening handshake with the head of an HTTP response: a status line, lines
with headers, and an empty line. It arrives in parts, so a head may be at fault, complete, or
not complete yet. What follows the head already belongs to the WebSocket.

## Main definitions

- `Response`: a response's head
- `Stop`: why a head is not read to its end
- `HeadReader.head`: reads a head, from its parts
- `Response.read`: the head at the start of octets
- `Response.header?`: the value of a header

## Design notes

Lines end in a line feed, with or without a carriage return before it. The reason phrase is
looked through for octets that no phrase has, and then dropped.
-/

namespace PersistentLink.WebSocket

/-- The code of an ASCII character. -/
def octetOf (c : Char) : UInt8 :=
  UInt8.ofNat c.toNat

/-- A header. -/
structure Header where
  name : Bytes
  value : Bytes
  deriving DecidableEq, Repr

/-- The head of a response. -/
structure Response where
  /-- the number after the point of the version -/
  minorVersion : Nat
  status : Nat
  /-- the headers in order -/
  headers : List Header
  deriving DecidableEq, Repr

/-- Why a head is not read to its end. -/
inductive Stop
  /-- more octets are needed -/
  | more
  /-- it is at fault -/
  | failure (cause : WebSocketFailure)
  deriving DecidableEq, Repr

/-- Reads something at the start of octets, and leaves the rest. -/
abbrev HeadReader := StateT Bytes (Except Stop)

namespace HeadReader

/-- So many headers may a head have. -/
def headerLimit : Nat := 124

/-! ## Classes of octets -/

/-- The octets of a header's name. -/
def isNameOctet (octet : UInt8) : Bool :=
  let c := Char.ofNat octet.toNat
  octet < 0x80 && (c.isAlphanum || "!#$%&'*+-.^_\x60|~".toList.contains c)

/-- The octets of a header's value and of a reason phrase. -/
def isTextOctet (octet : UInt8) : Bool :=
  octet == 0x09 || (0x20 ≤ octet && octet ≤ 0x7E) || 0x80 ≤ octet

/-- Blanks between the parts of a line. -/
def isBlank (octet : UInt8) : Bool :=
  octet == 0x20 || octet == 0x09

/-! ## Parts of a head -/

/-- Stops at a fault. -/
def faulty {α : Type} (fault : ResponseFault) : HeadReader α :=
  throw (.failure (.protocol (.response fault)))

/-- The next octet. -/
def octet : HeadReader UInt8 := do
  match ← get with
  | [] => throw .more
  | octet :: rest =>
    set rest
    return octet

/-- The octets up to the first one that is not in a class. -/
def takeWhile (inClass : UInt8 → Bool) : HeadReader Bytes := do
  let octets ← get
  set (octets.dropWhile inClass)
  return octets.takeWhile inClass

/-- A given octet; any other one is a fault. -/
def exactly (c : Char) (fault : ResponseFault) : HeadReader Unit := do
  if (← octet) != octetOf c then faulty fault

/-- The end of a line; anything else is a fault. -/
def lineEnd (fault : ResponseFault) : HeadReader Unit := do
  let first ← octet
  if first == octetOf '\r' then exactly '\n' fault
  else if first != octetOf '\n' then faulty fault

/-- Empty lines in front of the head are skipped. -/
def skipEmptyLines : Bytes → Except Stop Bytes
  | [] => .error .more
  | 10 :: rest => skipEmptyLines rest
  | 13 :: 10 :: rest => skipEmptyLines rest
  | [13] => .error .more
  | 13 :: _ => .error (.failure (.protocol (.response .newLine)))
  | octets => .ok octets

/-- The version: its first part is fixed, and the number after the point is given. -/
def version : HeadReader Nat := do
  let octets ← get
  let start := "HTTP/1.".toList.map octetOf
  if octets.length < 8 then
    if octets.isPrefixOf start then throw .more else faulty .version
  else
    set (octets.drop 8)
    if octets.take 8 == start ++ [octetOf '0'] then return 0
    else if octets.take 8 == start ++ [octetOf '1'] then return 1
    else faulty .version

/-- A decimal digit of the status. -/
def digit : HeadReader Nat := do
  let octet ← octet
  if octetOf '0' ≤ octet && octet ≤ octetOf '9' then return octet.toNat - (octetOf '0').toNat
  else faulty .status

/-- The rest of the status line after the status, which may hold a reason phrase. -/
def reason : HeadReader Unit := do
  match ← get with
  | 32 :: rest =>
    set rest
    let _ ← takeWhile isTextOctet
    lineEnd .status
  | _ => lineEnd .status

/-- The status line. -/
def statusLine : HeadReader (Nat × Nat) := do
  let minor ← version
  exactly ' ' .version
  let hundreds ← digit
  let tens ← digit
  let ones ← digit
  reason
  return (minor, hundreds * 100 + tens * 10 + ones)

/-- A header line. Blanks around the value are no part of it. -/
def header : HeadReader Header := do
  let name ← takeWhile isNameOctet
  exactly ':' .headerName
  let _ ← takeWhile isBlank
  let value ← takeWhile isTextOctet
  lineEnd .headerValue
  return ⟨name, (value.reverse.dropWhile isBlank).reverse⟩

/-- Whether the head ends here; its last line is read then. Otherwise a header has to follow. -/
def headEnds : HeadReader Bool := do
  match ← get with
  | [] => throw .more
  | first :: _ =>
    if first == octetOf '\r' || first == octetOf '\n' then
      lineEnd .newLine
      return true
    else if isNameOctet first then return false
    else faulty .headerName

/-- The header lines up to the line that ends the head, at most the given number of them. -/
def headers : Nat → HeadReader (List Header)
  | 0 => do
    if ← headEnds then return []
    let _ ← header
    throw (.failure .tooManyHeaders)
  | room + 1 => do
    if ← headEnds then return []
    let first ← header
    let later ← headers room
    return first :: later

/-- The whole head. -/
def head : HeadReader Response := do
  let rest ← skipEmptyLines (← get)
  set rest
  let (minorVersion, status) ← statusLine
  let headers ← headers headerLimit
  return { minorVersion, status, headers }

end HeadReader

namespace Response

/-- The head at the start of octets, and what follows it. -/
def read (octets : Bytes) : Except Stop (Response × Bytes) :=
  HeadReader.head octets

/-- An ASCII letter in lower case; any other octet as it is. -/
def lowered (octet : UInt8) : UInt8 :=
  if 0x41 ≤ octet && octet ≤ 0x5A then octet + 0x20 else octet

/-- Whether octets spell a text, apart from the case of ASCII letters. -/
def spells (octets : Bytes) (text : String) : Bool :=
  octets.map lowered == (text.toList.map octetOf).map lowered

/-- The value of the first header of a name; names are told apart without regard to case. -/
def header? (response : Response) (name : String) : Option Bytes :=
  (response.headers.find? fun header => spells header.name name).map (·.value)

end Response

end PersistentLink.WebSocket
