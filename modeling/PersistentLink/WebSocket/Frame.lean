import PersistentLink.Failure.WebSocket
import PersistentLink.LinkEvent

/-!
# Frames

Everything that travels over an open WebSocket is a frame: a head of two octets and more, which
states the kind and the length, and a payload of that length.

## Main definitions

- `Opcode`: the kinds of frame
- `Frame`: a frame
- `FrameHead.read?`: the head at the start of octets
- `Frame.read`: the frame at the start of octets

## Design notes

A kind that is not assigned, and a length over the limit, are found as soon as the head is
complete. Whether the frame may come at this point is not a question of its form, and is left to
the side that receives it.
-/

namespace PersistentLink.WebSocket

/-- So many octets may the payload of one frame have. -/
def frameLimit : Nat := 16777216

/-- The kinds of frame. -/
inductive Opcode
  /-- goes on with a message that was begun -/
  | continuation
  /-- begins a message of text -/
  | text
  /-- begins a message of octets -/
  | binary
  /-- begins or completes the closing of the connection -/
  | close
  /-- asks for a pong -/
  | ping
  /-- answers a ping -/
  | pong
  deriving DecidableEq, Repr, Inhabited

namespace Opcode

/-- The number of a kind in a head. -/
def number : Opcode → Nat
  | continuation => 0
  | text => 1
  | binary => 2
  | close => 8
  | ping => 9
  | pong => 10

/-- The kind of a number; most numbers are not assigned. -/
def ofNumber? : Nat → Option Opcode
  | 0 => some continuation
  | 1 => some text
  | 2 => some binary
  | 8 => some close
  | 9 => some ping
  | 10 => some pong
  | _ => none

/-- Whether a frame of this kind is about the connection, and no part of a message. -/
def isControl : Opcode → Bool
  | close | ping | pong => true
  | continuation | text | binary => false

@[simp]
theorem ofNumber?_number (opcode : Opcode) : ofNumber? opcode.number = some opcode := by
  cases opcode <;> rfl

end Opcode

/-- A frame. -/
structure Frame where
  /-- the last or only frame of a message -/
  final : Bool := true
  /-- three bits that are set only by agreement -/
  reserved : Nat := 0
  opcode : Opcode
  /-- the payload travels combined with a key -/
  masked : Bool
  /-- what is carried; of a masked frame from the other side, still combined with the key -/
  payload : Bytes
  deriving DecidableEq, Repr, Inhabited

/-- A head. -/
structure FrameHead where
  final : Bool
  reserved : Nat
  /-- number of the kind -/
  kind : Nat
  masked : Bool
  /-- length of the payload -/
  length : Nat
  deriving DecidableEq, Repr

/-- The number that octets write, the first octet counting most. -/
def bigEndian (octets : Bytes) : Nat :=
  octets.foldl (fun number octet => number * 256 + octet.toNat) 0

/-- So many octets from the start, and the rest. -/
def splitExactly (count : Nat) (octets : Bytes) : Option (Bytes × Bytes) :=
  if count ≤ octets.length then some (octets.splitAt count) else none

/-- The length of a payload: stated by seven bits of the head, unless these announce a number of
two or of eight octets. -/
def readLength (bits : Nat) (octets : Bytes) : Option (Nat × Bytes) :=
  let wide (count : Nat) : Option (Nat × Bytes) :=
    (splitExactly count octets).map fun (number, rest) => (bigEndian number, rest)
  match bits with
  | 126 => wide 2
  | 127 => wide 8
  | length => some (length, octets)

/-- The head at the start of octets, once all of it is there. -/
def FrameHead.read? : Bytes → Option (FrameHead × Bytes)
  | first :: second :: rest => do
    let (length, rest) ← readLength (second.toNat % 128) rest
    let masked := 128 ≤ second.toNat
    let (_, rest) ← splitExactly (if masked then 4 else 0) rest
    some
      ({ final := 128 ≤ first.toNat
         reserved := first.toNat / 16 % 8
         kind := first.toNat % 16
         masked
         length }, rest)
  | _ => none

/-- What is found at the start of octets. -/
inductive Frame.Found
  /-- the frame is not complete yet -/
  | incomplete
  /-- no frame begins so -/
  | failure (failure : WebSocketFailure)
  /-- a frame, and what follows it -/
  | frame (frame : Frame) (rest : Bytes)
  deriving Repr

/-- The frame at the start of octets. -/
def Frame.read (octets : Bytes) : Frame.Found :=
  match FrameHead.read? octets with
  | none => .incomplete
  | some (head, rest) =>
    match Opcode.ofNumber? head.kind with
    | none => .failure (.protocol (.invalidOpcode head.kind))
    | some opcode =>
      if frameLimit < head.length then .failure (.messageTooLong head.length frameLimit)
      else
        match splitExactly head.length rest with
        | none => .incomplete
        | some (payload, rest) =>
          .frame
            { final := head.final, reserved := head.reserved, opcode, masked := head.masked,
              payload }
            rest

/-! ## Nothing is read twice -/

theorem splitExactly_length {count : Nat} {octets taken rest : Bytes}
    (h : splitExactly count octets = some (taken, rest)) : rest.length ≤ octets.length := by
  unfold splitExactly at h
  split at h
  · simp only [Option.some.injEq, List.splitAt_eq, Prod.mk.injEq] at h
    rw [← h.2, List.length_drop]
    omega
  · cases h

theorem readLength_length {bits length : Nat} {octets rest : Bytes}
    (h : readLength bits octets = some (length, rest)) : rest.length ≤ octets.length := by
  unfold readLength at h
  split at h
  · obtain ⟨⟨taken, rest'⟩, h', heq⟩ := Option.map_eq_some_iff.1 h
    cases heq
    exact splitExactly_length h'
  · obtain ⟨⟨taken, rest'⟩, h', heq⟩ := Option.map_eq_some_iff.1 h
    cases heq
    exact splitExactly_length h'
  · cases h
    exact Nat.le_refl _

theorem FrameHead.read?_length {octets rest : Bytes} {head : FrameHead}
    (h : FrameHead.read? octets = some (head, rest)) : rest.length + 2 ≤ octets.length := by
  match octets, h with
  | first :: second :: tail, h =>
    simp only [FrameHead.read?, Option.bind_eq_bind, Option.bind_eq_some_iff] at h
    obtain ⟨⟨length, afterLength⟩, hlength, ⟨key, afterKey⟩, hkey, heq⟩ := h
    have h1 : afterLength.length ≤ tail.length := readLength_length hlength
    have h2 : afterKey.length ≤ afterLength.length := splitExactly_length hkey
    simp only [Option.some.injEq, Prod.mk.injEq] at heq
    obtain ⟨_, rfl⟩ := heq
    simp only [List.length_cons]
    omega

/-- What follows a frame is shorter than what the frame was read from. -/
theorem Frame.read_length {octets rest : Bytes} {frame : Frame}
    (h : Frame.read octets = .frame frame rest) : rest.length < octets.length := by
  unfold Frame.read at h
  split at h
  · cases h
  · rename_i head afterHead hhead
    have h1 := FrameHead.read?_length hhead
    split at h
    · cases h
    · split at h
      · cases h
      · split at h
        · cases h
        · rename_i taken afterPayload hpayload
          have h2 := splitExactly_length hpayload
          simp only [Frame.Found.frame.injEq] at h
          obtain ⟨_, rfl⟩ := h
          omega

end PersistentLink.WebSocket
