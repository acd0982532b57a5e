import EntityRules.Diagnostics
import EntityRules.Entity.Column
import EntityRules.Selector.Matching
import EntityRules.Selector.Reader

/-!
# Tracked selectors

**Input.**  Selectors, a store, and collision events.

**Algorithm.**  Equal selectors share a slot, which counts its references and holds the set of
entities that match.  An index finds the slot of a selector.  An event waits until the next
recalculation, lives through it until the one after, and is gone.  `refresh` recalculates only
if the revision of the store has moved, events wait or live, or a selector is new.

**Results.**  `Registry.track`, `Registry.release`, `Registry.recalculate`, `Registry.rematch` and
`Registry.refresh` are the operations; `Registry.firstMatch?` answers from the store rather than
from the sets.
-/

namespace EntityRules

/-- A selector in a slot, with the number of references to it: one by each active rule that tracks
it. -/
structure Tracked where
  selector : Selector
  refs : Nat
  found : EntitySet

/-- A tracked selector with the set of entities that match it now. -/
def Tracked.rematch (s : Store) (v : Events) (t : Tracked) : Tracked :=
  { t with found := (t.selector.selected s v).foldl EntitySet.insert t.found.clear }

/-- Selectors with the sets of entities that match them. -/
structure Registry where
  slots : Column Tracked
  index : List (Selector × Nat)
  pending : Events
  events : Events
  entityCapacity : Nat
  seenRevision : Option Nat
  newSelectors : Bool
  pulseLive : Bool

namespace Registry

/-- A registry with slots for selectors over the entities below a capacity. -/
def new (slots entityCapacity : Nat) : Registry where
  slots := .ofSize slots
  index := []
  pending := .withCapacity entityCapacity
  events := .withCapacity entityCapacity
  entityCapacity
  seenRevision := none
  newSelectors := false
  pulseLive := false

/-- The number of slots. -/
def capacity (r : Registry) : Nat := r.slots.size

/-- The number of selectors. -/
def size (r : Registry) : Nat := r.index.length

/-- The slot of a selector. -/
def slotOf? (r : Registry) (selector : Selector) : Option Nat :=
  (r.index.find? fun entry => entry.1 = selector).map (·.2)

/-- The selector in a slot. -/
def selector? (r : Registry) (slot : Nat) : Option Selector :=
  (r.slots.get? slot).map (·.selector)

/-- The set of entities that match the selector in a slot. -/
def found? (r : Registry) (slot : Nat) : Option EntitySet :=
  (r.slots.get? slot).map (·.found)

/-- The lowest empty slot. -/
def freeSlot? (r : Registry) : Option Nat :=
  (List.range r.slots.size).find? fun slot => !r.slots.has slot

/-! ## References -/

/-- Puts a selector into an empty slot. -/
def occupy (r : Registry) (selector : Selector) (slot : Nat) : Registry :=
  { r with
    slots := r.slots.set slot (some ⟨selector, 1, .withCapacity r.entityCapacity⟩)
    index := (selector, slot) :: r.index.filter (·.1 ≠ selector)
    newSelectors := true }

/-- Takes the lowest empty slot for a selector. -/
def occupyFree (r : Registry) (selector : Selector) : Registry × Except Failure Nat :=
  match r.freeSlot? with
  | some slot => (r.occupy selector slot, .ok slot)
  | none => (r, .error (.capacityExceeded "selector" r.capacity))

/-- Adds a reference to a selector, which takes a slot if it has none. -/
def track (r : Registry) (selector : Selector) : Registry × Except Failure Nat :=
  match r.slotOf? selector with
  | some slot =>
    match r.slots.get? slot with
    | some tracked =>
      ({ r with slots := r.slots.set slot (some { tracked with refs := tracked.refs + 1 }) },
        .ok slot)
    | none => r.occupyFree selector
  | none => r.occupyFree selector

/-- Drops a reference to the selector in a slot; without references the slot is emptied. -/
def release (r : Registry) (slot : Nat) : Registry :=
  match r.slots.get? slot with
  | none => r
  | some tracked =>
    if tracked.refs ≤ 1 then
      { r with
        slots := r.slots.set slot none
        index := r.index.filter (·.1 ≠ tracked.selector) }
    else { r with slots := r.slots.set slot (some { tracked with refs := tracked.refs - 1 }) }

/-! ## Events -/

/-- Notes an event for the next recalculation. -/
def pulse (r : Registry) (kind : EventKind) (e : Nat) : Registry :=
  { r with pending := r.pending.insert kind e }

/-- Forgets the events of entities that are not active. -/
def dropStaleEvents (r : Registry) (s : Store) : Registry :=
  { r with events := r.events.retain s.isActive, pending := r.pending.retain s.isActive }

/-! ## Matching -/

/-- Finds the sets of all selectors anew, with the events that live. -/
def rematch (r : Registry) (s : Store) : Registry :=
  { r with
    slots := ⟨r.slots.slots.map fun slot => slot.map (Tracked.rematch s r.events)⟩
    seenRevision := some s.revision
    newSelectors := false }

/-- Lets the waiting events live in place of the former ones. -/
def advance (r : Registry) : Registry :=
  { r with
    events := r.pending
    pending := r.events.clear
    pulseLive := !r.pending.isEmpty }

/-- Lets the waiting events live and finds the sets of all selectors anew. -/
def recalculate (r : Registry) (s : Store) : Registry := r.advance.rematch s

/-- Whether the sets show the present state of the store. -/
def isFresh (r : Registry) (s : Store) : Bool :=
  r.seenRevision == some s.revision && !r.newSelectors && !r.pulseLive && r.pending.isEmpty

/-- Recalculates unless the sets are fresh; also whether it did. -/
def refresh (r : Registry) (s : Store) : Registry × Bool :=
  if r.isFresh s then (r, false) else (r.recalculate s, true)

/-- The lowest active entity that a selector selects now. -/
def firstMatch? (r : Registry) (selector : Selector) (s : Store) : Option Nat :=
  s.actives.find? (selector.selects s r.events)

/-- Reads a selector, with the failure to report if it is not one. -/
def readSelector (text : String) : Except Failure Selector :=
  match Selector.read text with
  | .ok selector => .ok selector
  | .error e => .error (.malformed ("selector '" ++ text ++ "'") e.message)

end Registry
end EntityRules
