import PersistentLink.Endpoint.Basic

/-!
# Settings of a manager

Where a manager connects to, how long an attempt may take, and how many events are kept for a
subscriber who falls behind.

## Main definitions

- `Tuning`: limits
- `Settings`: limits and endpoint
-/

namespace PersistentLink

/-- Limits of a managed connection. -/
structure Tuning where
  /-- so many milliseconds may an attempt take; without a limit it may take for ever -/
  connectLimit : Option Nat := none
  /-- so many events are kept for a subscriber who falls behind -/
  eventCapacity : Nat := 64
  deriving DecidableEq, Repr, Inhabited

/-- All that can be set. -/
structure Settings where
  /-- the address of the remote side -/
  endpoint : Endpoint := .standard
  /-- the limits -/
  tuning : Tuning := {}
  deriving DecidableEq, Repr, Inhabited

/-- The usual limits, with the given endpoint. -/
def Settings.ofEndpoint (endpoint : Endpoint) : Settings :=
  { endpoint }

end PersistentLink
