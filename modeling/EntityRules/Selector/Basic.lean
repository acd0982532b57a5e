/-!
# Selectors

**Input.**  Atoms: a name, a tag, or the kind of a collision event.

**Algorithm.**  A selector is a chain of atoms, each refined by the next, or a union of
selectors.  `refinedBy` puts a refinement after the head of a chain, in place of the one that
was there; a union takes none.

**Results.**  `text` writes a selector with `:` between the links of a chain and `, ` between
the chains of a union.  `chains` and `links` list the parts.  A union in the place of a
refinement is a link of its own, ends the links and is written as nothing.
-/

namespace EntityRules

/-- The kinds of collision events. -/
inductive EventKind where
  | enter
  | exit
deriving DecidableEq, Repr

namespace EventKind

/-- Both kinds, in order. -/
def all : List EventKind := [.enter, .exit]

/-- The name of a kind. -/
def name : EventKind → String
  | .enter => "enter"
  | .exit => "exit"

/-- The kind of a name. -/
def ofName? (text : String) : Option EventKind :=
  all.find? fun kind => kind.name = text

end EventKind

/-- A single condition on an entity. -/
inductive Atom where
  /-- The entity of this name. -/
  | id (name : String)
  /-- The entities with this tag. -/
  | tag (name : String)
  /-- The entities with an event of this kind. -/
  | event (kind : EventKind)
deriving DecidableEq, Repr

namespace Atom

/-- An atom with its sign. -/
def text : Atom → String
  | .id name => "@" ++ name
  | .tag name => "#" ++ name
  | .event kind => "!" ++ kind.name

/-- Whether an atom asks for an event. -/
def isEvent : Atom → Bool
  | .event _ => true
  | _ => false

end Atom

/-- A condition on entities. -/
inductive Selector where
  /-- An atom alone. -/
  | atom (head : Atom)
  /-- An atom and a further condition. -/
  | refined (head : Atom) (next : Selector)
  /-- The conditions one of which must hold. -/
  | union (chains : List Selector)

namespace Selector

/-- Puts a refinement after the head of a chain. -/
def refinedBy (base next : Selector) : Selector :=
  match base with
  | .atom head => .refined head next
  | .refined head _ => .refined head next
  | .union chains => .union chains

/-- The refinement of a chain. -/
def next? : Selector → Option Selector
  | .refined _ next => some next
  | _ => none

/-- The members of a union; a chain is its own only member. -/
def chains : Selector → List Selector
  | .union chains => chains
  | chain => [chain]

/-- The tails of a chain, the whole chain first; a union in last place counts. -/
def tails : Selector → List Selector
  | .refined head next => .refined head next :: tails next
  | last => [last]

/-- The links of a chain, the whole chain first; a union has none. -/
def links : Selector → List Selector
  | .union _ => []
  | chain => chain.tails

/-- Whether the head of a selector asks for an event. -/
def headIsEvent : Selector → Bool
  | .atom head => head.isEvent
  | .refined head _ => head.isEvent
  | .union _ => false

/-- Whether a link of a chain asks for an event. -/
def usesEvents (s : Selector) : Bool :=
  s.chains.any fun chain => chain.links.any headIsEvent

/-- The text of a chain. -/
def chainText : Selector → String
  | .atom head => head.text
  | .refined head next => head.text ++ ":" ++ chainText next
  | .union _ => ""

mutual

/-- The text of a selector. -/
def text : Selector → String
  | .atom head => head.text
  | .refined head next => head.text ++ ":" ++ chainText next
  | .union chains => ", ".intercalate (texts chains)

/-- The texts of the members of a union. -/
def texts : List Selector → List String
  | [] => []
  | s :: rest => text s :: texts rest

end

mutual

/-- Equality of selectors. -/
def beq : Selector → Selector → Bool
  | .atom a, .atom b => a == b
  | .refined a s, .refined b t => a == b && beq s t
  | .union ss, .union ts => beqAll ss ts
  | _, _ => false

/-- Equality of lists of selectors. -/
def beqAll : List Selector → List Selector → Bool
  | [], [] => true
  | s :: ss, t :: ts => beq s t && beqAll ss ts
  | _, _ => false

end

mutual

theorem beq_iff_eq (s t : Selector) : beq s t = true ↔ s = t := by
  match s, t with
  | .atom a, .atom b => simp [beq]
  | .refined a s, .refined b t => simp [beq, beq_iff_eq s t]
  | .union ss, .union ts => simp [beq, beqAll_iff_eq ss ts]
  | .atom _, .refined _ _ => simp [beq]
  | .atom _, .union _ => simp [beq]
  | .refined _ _, .atom _ => simp [beq]
  | .refined _ _, .union _ => simp [beq]
  | .union _, .atom _ => simp [beq]
  | .union _, .refined _ _ => simp [beq]

theorem beqAll_iff_eq (ss ts : List Selector) : beqAll ss ts = true ↔ ss = ts := by
  match ss, ts with
  | [], [] => simp [beqAll]
  | [], _ :: _ => simp [beqAll]
  | _ :: _, [] => simp [beqAll]
  | s :: ss, t :: ts => simp [beqAll, beq_iff_eq s t, beqAll_iff_eq ss ts]

end

instance : DecidableEq Selector := fun s t =>
  decidable_of_iff (beq s t = true) (beq_iff_eq s t)

end Selector
end EntityRules
