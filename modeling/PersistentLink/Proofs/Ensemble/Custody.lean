import Mathlib.Data.List.Nodup
import PersistentLink.Ensemble

/-!
# The custody of links

A link is handed over by the transport to the attempt that asked for it, and from there on it is
somebody's duty to close it. What is done with links, in order, is kept in a journal; a journal is
proper if no link is handed over while another one is not closed, or not yet closed.

## Main definitions

- `Deed`: an entry of the journal
- `Custody`: what a journal says of the present
- `Custody.Allows`: which entry may come next
- `Kept`: a proper journal

## Main results

- `Kept.calls_sublist`: the transport is called once for an attempt, in order
- `Kept.handovers_eq`: the links that were handed over are those that were closed, and one more
- `Kept.of_wrote`: nothing is written to a link that is closed or has failed
- `Kept.of_closing`: once a closing begins, nothing is done before it has ended
-/

namespace PersistentLink

/-- An entry of the journal. -/
inductive Deed
  /-- an attempt is announced -/
  | announced (generation : Nat)
  /-- the attempt of a generation calls the transport -/
  | called (generation : Nat)
  /-- the transport hands a link to an attempt -/
  | handed (link : LinkId)
  /-- the writing of a payload begins -/
  | wrote (link : LinkId)
  /-- a write fails -/
  | unwritten (link : LinkId)
  /-- the closing of a writer begins -/
  | closing (link : LinkId) (clock : Nat)
  /-- the closing of a writer ends -/
  | closed (outcome : CloseOutcome) (clock : Nat)
  deriving DecidableEq, Repr

namespace Deed

def announced? : Deed → Option Nat
  | announced generation => some generation
  | _ => none

def called? : Deed → Option Nat
  | called generation => some generation
  | _ => none

def handed? : Deed → Option LinkId
  | handed link => some link
  | _ => none

def closing? : Deed → Option LinkId
  | closing link _ => some link
  | _ => none

/-- The generations of the attempts that were announced, in order. -/
def announcements (deeds : List Deed) : List Nat :=
  deeds.filterMap announced?

/-- The generations of the attempts that called the transport, in order. -/
def calls (deeds : List Deed) : List Nat :=
  deeds.filterMap called?

/-- The links that were handed over, in order. -/
def handovers (deeds : List Deed) : List LinkId :=
  deeds.filterMap handed?

/-- The links whose closing began, in order. -/
def closings (deeds : List Deed) : List LinkId :=
  deeds.filterMap closing?

variable (deeds : List Deed) (deed : Deed)

theorem handovers_append (later : List Deed) :
    handovers (deeds ++ later) = handovers deeds ++ handovers later :=
  List.filterMap_append

@[simp]
theorem announcements_concat :
    announcements (deeds ++ [deed]) = announcements deeds ++ deed.announced?.toList := by
  cases deed <;> simp [announcements, announced?]

@[simp]
theorem calls_concat : calls (deeds ++ [deed]) = calls deeds ++ deed.called?.toList := by
  cases deed <;> simp [calls, called?]

@[simp]
theorem handovers_concat :
    handovers (deeds ++ [deed]) = handovers deeds ++ deed.handed?.toList := by
  cases deed <;> simp [handovers, handed?]

@[simp]
theorem closings_concat :
    closings (deeds ++ [deed]) = closings deeds ++ deed.closing?.toList := by
  cases deed <;> simp [closings, closing?]

end Deed

open Deed

/-- What a journal says of the present. -/
structure Custody where
  /-- generation of the last attempt that was announced -/
  generation : Nat := 0
  /-- generation of an attempt that has not called the transport yet -/
  awaited : Option Nat := none
  /-- the link that was handed over and whose closing has not begun -/
  link : Option LinkId := none
  /-- a write to the link has failed -/
  spoiled : Bool := false
  /-- time at which the closing under way began -/
  since : Option Nat := none
  deriving DecidableEq, Repr

/-- The entries that may come next, and what the journal says then. -/
inductive Custody.Allows (c : Custody) : Deed → Custody → Prop
  | announced (generation : Nat) (later : c.generation < generation) (free : c.link = none)
      (settled : c.since = none) :
    Allows c (.announced generation) { c with generation, awaited := some generation }
  | called (generation : Nat) (awaited : c.awaited = some generation) (free : c.link = none)
      (settled : c.since = none) :
    Allows c (.called generation) { c with awaited := none }
  | handed (link : LinkId) (free : c.link = none) (settled : c.since = none) :
    Allows c (.handed link) { c with link := some link, spoiled := false }
  | wrote (link : LinkId) (held : c.link = some link) (unspoiled : c.spoiled = false) :
    Allows c (.wrote link) c
  | unwritten (link : LinkId) (held : c.link = some link) :
    Allows c (.unwritten link) { c with spoiled := true }
  | closing (link : LinkId) (clock : Nat) (held : c.link = some link) :
    Allows c (.closing link clock) { c with link := none, since := some clock }
  -- a closing is not given up before its time has passed
  | closed (outcome : CloseOutcome) (clock since : Nat) (hsince : c.since = some since)
      (patient : outcome = .timedOut → min (since + closeGrace) timeHorizon ≤ clock) :
    Allows c (.closed outcome clock) { c with since := none }

/-- A proper journal, and what it says of the present. -/
inductive Kept : List Deed → Custody → Prop
  | nil : Kept [] {}
  | concat {past : List Deed} {c next : Custody} {deed : Deed} (kept : Kept past c)
      (allows : c.Allows deed next) : Kept (past ++ [deed]) next

variable {deeds before after : List Deed} {c : Custody} {deed : Deed} {link : LinkId} {clock : Nat}

/-! ## What a proper journal says of the past -/

theorem Kept.announcements_lt (h : Kept deeds c) :
    (announcements deeds).Pairwise (· < ·) ∧
      ∀ generation ∈ announcements deeds, generation ≤ c.generation := by
  induction h with
  | nil => simp [announcements]
  | concat kept allows ih =>
    obtain ⟨hlt, hle⟩ := ih
    cases allows with
    | announced generation later =>
      simp only [announcements_concat, announced?, Option.toList_some, List.pairwise_append,
        List.pairwise_singleton, List.mem_append, List.mem_singleton]
      refine ⟨⟨hlt, trivial, fun first hfirst last hlast => ?_⟩, fun other hother => ?_⟩
      · have hbound := hle first hfirst
        omega
      · obtain hearlier | rfl := hother
        · have hbound := hle other hearlier
          omega
        · exact Nat.le_refl _
    | _ => simpa [announced?] using ⟨hlt, hle⟩

theorem Kept.calls_sublist (h : Kept deeds c) :
    (calls deeds ++ c.awaited.toList).Sublist (announcements deeds) := by
  induction h with
  | nil => simp [calls, announcements]
  | @concat past c next deed kept allows ih =>
    have hcalls : (calls past).Sublist (announcements past) :=
      (List.sublist_append_left _ _).trans ih
    cases allows with
    | announced generation =>
      simpa [announced?, called?] using hcalls.append_right [generation]
    | called generation awaited => simpa [announced?, called?, awaited] using ih
    | _ => simpa [announced?, called?] using ih

/-- The links that were handed over are those whose closing has begun, in the same order, and then
the present one. -/
theorem Kept.handovers_eq (h : Kept deeds c) :
    handovers deeds = closings deeds ++ c.link.toList := by
  induction h with
  | nil => rfl
  | concat kept allows ih =>
    cases allows with
    | announced | called | wrote | unwritten | closed =>
      simpa [handed?, closing?] using ih
    | handed link free => simpa [handed?, closing?, free] using ih
    | closing link clock held => simpa [handed?, closing?, held] using ih

theorem Kept.of_unwritten (h : Kept deeds c) (hmem : .unwritten link ∈ deeds) :
    link ∈ closings deeds ∨ c.link = some link ∧ c.spoiled = true := by
  induction h with
  | nil => simp at hmem
  | concat kept allows ih =>
    cases allows with
    | announced | called | wrote | closed => simpa [closing?] using ih (by simpa using hmem)
    | handed other free => simpa [closing?, free] using ih (by simpa using hmem)
    | unwritten other held =>
      simp only [List.mem_append, List.mem_singleton, Deed.unwritten.injEq] at hmem
      obtain hearlier | rfl := hmem
      · obtain hclosed | ⟨hlink, -⟩ := ih hearlier
        · exact .inl (by simpa [closing?] using hclosed)
        · exact .inr ⟨hlink, rfl⟩
      · exact .inr ⟨held, rfl⟩
    | closing other clock held =>
      left
      obtain hclosed | ⟨hlink, -⟩ := ih (by simpa using hmem)
      · simp [closing?, hclosed]
      · obtain rfl : link = other := Option.some.inj (hlink.symm.trans held)
        simp [closing?]

/-- While a closing is under way no link is held. -/
theorem Kept.link_eq_none (h : Kept deeds c) {since : Nat} (hsince : c.since = some since) :
    c.link = none := by
  induction h generalizing since with
  | nil => simp at hsince
  | concat kept allows ih =>
    cases allows with
    | announced _ _ free | called _ _ free => exact free
    | handed _ _ settled => simp [settled] at hsince
    | closing => rfl
    | wrote | unwritten => exact ih hsince
    | closed => simp at hsince

/-! ## What may stand where -/

theorem Kept.exists_allows (h : Kept deeds c) (hdeeds : deeds = before ++ deed :: after) :
    ∃ first second, Kept before first ∧ first.Allows deed second ∧
      Kept (before ++ [deed]) second := by
  induction h generalizing after with
  | nil => simp at hdeeds
  | @concat past c next last kept allows ih =>
    obtain rfl | ⟨rest, final, rfl⟩ := List.eq_nil_or_concat after
    · obtain ⟨rfl, hlast⟩ := List.append_inj' hdeeds rfl
      obtain rfl : last = deed := by simpa using hlast
      exact ⟨c, next, kept, allows, kept.concat allows⟩
    · rw [List.concat_eq_append, ← List.cons_append, ← List.append_assoc] at hdeeds
      exact ih (List.append_inj' hdeeds rfl).1

theorem Kept.since_eq (h : Kept (before ++ [.closing link clock]) c) : c.since = some clock := by
  generalize hdeeds : before ++ [Deed.closing link clock] = deeds at h
  cases h with
  | nil => simp at hdeeds
  | concat kept allows =>
    obtain ⟨-, hlast⟩ := List.append_inj' hdeeds rfl
    obtain rfl := (List.singleton_inj.mp hlast).symm
    cases allows
    rfl

/-- What is written to is a link that was handed over; its closing has not begun, and no write to it
has failed. -/
theorem Kept.of_wrote (h : Kept deeds c) (distinct : (handovers deeds).Nodup)
    (hdeeds : deeds = before ++ .wrote link :: after) :
    link ∈ handovers before ∧ link ∉ closings before ∧ .unwritten link ∉ before := by
  obtain ⟨first, second, hbefore, hallows, -⟩ := h.exists_allows hdeeds
  have hhandovers := hbefore.handovers_eq
  cases hallows with
  | wrote _ held unspoiled =>
    have hnodup : (handovers before).Nodup := by
      refine distinct.sublist (List.Sublist.filterMap _ ?_)
      rw [hdeeds]
      exact List.sublist_append_left _ _
    rw [hhandovers, held, Option.toList_some, List.nodup_append] at hnodup
    have hopen : link ∉ closings before := fun hmem =>
      hnodup.2.2 link hmem link (List.mem_singleton_self _) rfl
    refine ⟨by simp [hhandovers, held], hopen, fun hmem => ?_⟩
    obtain hclosed | ⟨-, hspoiled⟩ := hbefore.of_unwritten hmem
    · exact hopen hclosed
    · simp [unspoiled] at hspoiled

/-- A closing that has begun ends before anything else is done, and is given up only once its time
has passed. -/
theorem Kept.of_closing (h : Kept deeds c)
    (hdeeds : deeds = before ++ .closing link clock :: after) :
    after = [] ∨ ∃ outcome later rest, after = .closed outcome later :: rest ∧
      (outcome = .timedOut → min (clock + closeGrace) timeHorizon ≤ later) := by
  cases after with
  | nil => exact .inl rfl
  | cons next rest =>
    right
    have hnext : deeds = (before ++ [.closing link clock]) ++ next :: rest := by simp [hdeeds]
    obtain ⟨first, second, hbefore, hallows, -⟩ := h.exists_allows hnext
    have hsince := hbefore.since_eq
    have hlink := hbefore.link_eq_none hsince
    cases hallows with
    | announced _ _ _ settled | called _ _ _ settled | handed _ _ settled =>
      simp [settled] at hsince
    | wrote _ held | unwritten _ held | closing _ _ held => simp [held] at hlink
    | closed outcome later since began patient =>
      obtain rfl : since = clock := Option.some.inj (began.symm.trans hsince)
      exact ⟨outcome, later, rest, rfl, patient⟩

end PersistentLink
