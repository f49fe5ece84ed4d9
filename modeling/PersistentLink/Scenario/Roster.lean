import PersistentLink.Ensemble

/-!
# Whose turn it is

The parties of a scenario share one thread, so they take turns. A party that has a reason to go
on joins a line and waits for its turn. A party that has used up its share of a turn steps back,
and is let in again when nobody stands in the line.

## Main definitions

- `Party`: the parties
- `Roster`: the line, those who have stepped back, and what the manager listens to
- `Roster.join`: a party has a reason to go on
- `Roster.stepBack`: a party has used up its share
- `Roster.readmit`: those who have stepped back are let in again

## Main statements

- `Roster.nodup_join`: nobody stands in the line twice
- `Roster.mem_line_join`: who has joined the line stands in it
-/

namespace PersistentLink.Scenario

/-- The parties that take turns. -/
inductive Party
  /-- the manager -/
  | manager
  /-- the attempt of a generation -/
  | attempt (generation : Nat)
  /-- the reader of a link -/
  | reader (link : LinkId)
  deriving DecidableEq, Repr

/-- Whose turn it is. -/
structure Roster where
  /-- the parties that have a reason to go on, in the order in which they joined the line -/
  line : List Party := []
  /-- the parties that have used up their share, the last one first -/
  resting : List Party := []
  /-- the manager joins the line as soon as a task posts a message -/
  heedsInbox : Bool := false
  /-- the manager joins the line as soon as a command is given, or nobody can give one -/
  heedsCommands : Bool := false
  deriving Repr

namespace Roster

/-- A party has a reason to go on. Who stands in the line already keeps the place. -/
def join (roster : Roster) (party : Party) : Roster :=
  if party ∈ roster.line then roster else { roster with line := roster.line ++ [party] }

/-- A party that joined the line during its own turn goes to the end of it after the turn. -/
def rejoin (roster : Roster) (party : Party) : Roster :=
  if party ∈ roster.line then { roster with line := roster.line.erase party ++ [party] }
  else roster

/-- A party has used up its share. -/
def stepBack (roster : Roster) (party : Party) : Roster :=
  if roster.resting.head? = some party then roster
  else { roster with resting := party :: roster.resting }

/-- Those who have stepped back are let in again, the last one first. -/
def readmit (roster : Roster) : Roster :=
  roster.resting.foldl join { roster with resting := [] }

/-- Whether nobody has a reason to go on. -/
def isQuiet (roster : Roster) : Bool :=
  roster.line.isEmpty && roster.resting.isEmpty

/-- Who has joined the line stands in it, as do all who stood in it before. -/
@[simp]
theorem mem_line_join (roster : Roster) (party other : Party) :
    other ∈ (roster.join party).line ↔ other ∈ roster.line ∨ other = party := by
  unfold join
  split
  · constructor
    · exact Or.inl
    · rintro (standing | rfl) <;> assumption
  · simp

/-- Nobody stands in the line twice. -/
theorem nodup_join (roster : Roster) (party : Party) (nodup : roster.line.Nodup) :
    (roster.join party).line.Nodup := by
  unfold join
  split
  · exact nodup
  · rename_i absent
    simp only [List.nodup_append, nodup, List.nodup_cons, List.not_mem_nil, not_false_eq_true,
      List.nodup_nil, List.mem_singleton, true_and, and_true]
    rintro standing member _ rfl rfl
    exact absent member

end Roster

end PersistentLink.Scenario
