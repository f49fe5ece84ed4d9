import PersistentLink.Payload

/-!
# What a link reports

An open link reports inbound messages, and at most once that it has closed. The close
carries a status code in the sense of the WebSocket registry of close codes.

## Main definitions

- `CloseStatus`: code and reason of a closure
- `CloseStatus.abnormal`: the status of a link that went away without a close frame
- `LinkEvent`: an inbound message, or the closure of the link
-/

namespace PersistentLink

/-- The status reported when a link closes. -/
structure CloseStatus where
  /-- status code of the closure -/
  code : UInt16
  /-- explanation given along with the code, possibly empty -/
  reason : String
  deriving DecidableEq, Repr, Inhabited

namespace CloseStatus

/-- The code of a closure that both sides wanted. -/
def normalCode : UInt16 := 1000

/-- The code of a closure that carried no code. It never travels in a frame. -/
def absentCode : UInt16 := 1005

/-- The code of a link that ended without a close frame. It never travels in a frame. -/
def abnormalCode : UInt16 := 1006

/-- The status of a link that ended without a close frame, such as a dropped stream. -/
def abnormal (reason : String) : CloseStatus :=
  ⟨abnormalCode, reason⟩

/-- The status of a close frame that states neither code nor reason. -/
def absent : CloseStatus :=
  ⟨absentCode, ""⟩

/-- Whether the peer shut the link down cleanly. -/
def isNormal (status : CloseStatus) : Bool :=
  status.code == normalCode

@[simp]
theorem isNormal_abnormal (reason : String) : (abnormal reason).isNormal = false := rfl

end CloseStatus

/-- An event produced by the reading half of a link. -/
inductive LinkEvent
  /-- an inbound message -/
  | message (payload : Payload)
  /-- the link has closed; nothing follows -/
  | closed (status : CloseStatus)
  deriving DecidableEq, Repr, Inhabited

/-- Whether the event is the last one its link produces. -/
def LinkEvent.isClosed : LinkEvent → Bool
  | message _ => false
  | closed _ => true

end PersistentLink
