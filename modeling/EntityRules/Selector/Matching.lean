import EntityRules.Entity.Set
import EntityRules.Entity.Store

/-!
# Which entities a selector selects

**Input.**  A selector, a store, and the entities with an event of each kind.

**Algorithm.**  An atom is decided by the name or the tags of the entity, or by the events.  A
chain holds when its head and its refinement do, a union when one of its members does.  A union
directly inside a union has no links of its own and holds of every entity.

**Results.**  `Selector.selects` decides a selector for an entity; `Selector.selected` lists the
active entities that it selects.
-/

namespace EntityRules

/-- The entities with an event of each kind. -/
structure Events where
  enter : EntitySet
  exit : EntitySet
deriving DecidableEq

namespace Events

/-- No events, with room for the entities below a capacity. -/
def withCapacity (capacity : Nat) : Events :=
  ⟨.withCapacity capacity, .withCapacity capacity⟩

/-- The entities with an event of a kind. -/
def get (v : Events) : EventKind → EntitySet
  | .enter => v.enter
  | .exit => v.exit

/-- Adds an event. -/
def insert (v : Events) (kind : EventKind) (e : Nat) : Events :=
  match kind with
  | .enter => { v with enter := v.enter.insert e }
  | .exit => { v with exit := v.exit.insert e }

/-- Takes all events away. -/
def clear (v : Events) : Events := ⟨v.enter.clear, v.exit.clear⟩

/-- Whether there is no event. -/
def isEmpty (v : Events) : Bool := v.enter.isEmpty && v.exit.isEmpty

/-- Keeps the events of the entities that pass a test. -/
def retain (v : Events) (keep : Nat → Bool) : Events := ⟨v.enter.retain keep, v.exit.retain keep⟩

end Events

/-- Whether an atom holds of an entity. -/
def Atom.holds (s : Store) (v : Events) (e : Nat) : Atom → Bool
  | .id name => s.get? .name e == some name
  | .tag name =>
    match s.get? .tags e with
    | some tags => tags.contains name
    | none => false
  | .event kind => (v.get kind).contains e

namespace Selector

mutual

/-- Whether a selector holds, given which atoms do. -/
def holds (atom : Atom → Bool) : Selector → Bool
  | .atom head => atom head
  | .refined head next => atom head && holds atom next
  | .union chains => someHolds atom chains

/-- Whether a member of a union holds. -/
def someHolds (atom : Atom → Bool) : List Selector → Bool
  | [] => false
  | .union _ :: _ => true
  | chain :: rest => holds atom chain || someHolds atom rest

end

/-- Whether a selector selects an entity. -/
def selects (selector : Selector) (s : Store) (v : Events) (e : Nat) : Bool :=
  selector.holds (Atom.holds s v e)

/-- The active entities that a selector selects, in ascending order. -/
def selected (selector : Selector) (s : Store) (v : Events) : List Nat :=
  s.actives.filter (selector.selects s v)

end Selector
end EntityRules
