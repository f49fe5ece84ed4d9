import PersistentLink.Failure.OsError

/-!
# Failures of input and output

What a stream reports when reading or writing fails: a bare kind, a kind with a text of its own,
or an error number of the operating system.

## Main definitions

- `IoFailure`: a failure, with `IoFailure.kind` and `IoFailure.message`
-/

namespace PersistentLink

/-- A failure of input or output. -/
inductive IoFailure
  /-- known by its kind alone -/
  | bare (kind : IoKind)
  /-- a kind, and a text that says more -/
  | described (kind : IoKind) (text : String)
  /-- an error number of the operating system -/
  | system (number : Int)
  deriving DecidableEq, Repr, Inhabited

namespace IoFailure

/-- The kind under which a failure is filed. -/
def kind : IoFailure → IoKind
  | bare kind => kind
  | described kind _ => kind
  | system number => (OsError.ofNumber number).kind

/-- What a failure says. -/
def message : IoFailure → String
  | bare kind => kind.message
  | described _ text => text
  | system number =>
    (OsError.ofNumber number).description ++ " (os error " ++ toString number ++ ")"

end IoFailure

end PersistentLink
