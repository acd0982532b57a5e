import EntityRules.Assoc
import EntityRules.Entity.Style
import EntityRules.Selector.Basic

/-!
# Components of entities

**Input.**  The seven kinds of data that an entity can carry.

**Algorithm.**  `Components` is a record with one optional field per kind; `get` and `set`
reach the fields by the kind.  Only the name and the tags bear on which selectors an entity
satisfies.

**Results.**  `Components.get_set_self`, `Components.get_set_of_ne` and `Components.ext_get` make
a record the function from kinds to values.
-/

namespace EntityRules

/-! ## Tags -/

/-- Tags in the order in which they were added, each once. -/
structure Tags where
  toList : List String
  nodup : toList.Nodup
deriving DecidableEq

namespace Tags

/-- No tags. -/
def empty : Tags := ⟨[], List.nodup_nil⟩

/-- Whether a tag is there. -/
def contains (t : Tags) (tag : String) : Bool := t.toList.contains tag

/-- Adds a tag after the others unless it is there, and says whether it was added. -/
def add (t : Tags) (tag : String) : Tags × Bool :=
  if h : tag ∈ t.toList then (t, false)
  else
    (⟨t.toList ++ [tag], by
      simp only [List.nodup_append, t.nodup, true_and, List.mem_singleton]
      exact ⟨by simp, fun a ha b hb e => h (hb ▸ e ▸ ha)⟩⟩, true)

/-- Takes a tag away, and says whether it was there. -/
def drop (t : Tags) (tag : String) : Tags × Bool :=
  if tag ∈ t.toList then (⟨t.toList.erase tag, t.nodup.sublist List.erase_sublist⟩, true)
  else (t, false)

/-- The tags with one more after the others, unless it is there. -/
def insert (t : Tags) (tag : String) : Tags := (t.add tag).1

/-- The tags without one. -/
def remove (t : Tags) (tag : String) : Tags := (t.drop tag).1

/-- The tags of a list, each at its first place. -/
def ofList (tags : List String) : Tags := tags.foldl insert empty

end Tags

/-! ## Space -/

/-- A point or a direction in space. -/
structure Vec3 where
  x : Float32
  y : Float32
  z : Float32

/-- A rotation in space as a quaternion. -/
structure Rotation where
  x : Float32
  y : Float32
  z : Float32
  w : Float32

/-- The place of an entity relative to its parent. -/
structure Transform where
  position : Vec3 := ⟨0, 0, 0⟩
  rotation : Rotation := ⟨0, 0, 0, 1⟩
  scale : Vec3 := ⟨1, 1, 1⟩
  anchor : Vec3 := ⟨0, 0, 0⟩

/-- The rectangle that a layout gave to an entity. -/
structure Layout where
  x : Float32 := 0
  y : Float32 := 0
  width : Float32 := 0
  height : Float32 := 0

/-! ## Properties -/

/-- A value of a property. -/
inductive Property where
  | bool (b : Bool)
  | number (x : Float)
  | text (s : String)

/-- Properties by key, in the order of the keys. -/
abbrev Properties := List (String × Property)

/-! ## Records -/

/-- The kinds of components. -/
inductive Component where
  | name
  | tags
  | transform
  | properties
  | parent
  | flex
  | layout
deriving DecidableEq, Repr

namespace Component

/-- The type of the values of a component. -/
abbrev Value : Component → Type
  | name => String
  | tags => Tags
  | transform => Transform
  | properties => Properties
  | parent => Selector
  | flex => FlexStyle
  | layout => Layout

/-- Whether selectors read the component. -/
def affectsSelection : Component → Bool
  | name | tags => true
  | _ => false

/-- The value with which a component starts, if it has one. -/
def default? : (c : Component) → Option c.Value
  | name => none
  | tags => some .empty
  | transform => some {}
  | properties => some []
  | parent => none
  | flex => some .empty
  | layout => some {}

end Component

/-- The components of an entity. -/
structure Components where
  name : Option String := none
  tags : Option Tags := none
  transform : Option Transform := none
  properties : Option Properties := none
  parent : Option Selector := none
  flex : Option FlexStyle := none
  layout : Option Layout := none

namespace Components

/-- No components. -/
def empty : Components := {}

/-- The value of a component. -/
def get (s : Components) : (c : Component) → Option c.Value
  | .name => s.name
  | .tags => s.tags
  | .transform => s.transform
  | .properties => s.properties
  | .parent => s.parent
  | .flex => s.flex
  | .layout => s.layout

/-- Gives a component a value, or takes it away. -/
def set (s : Components) : (c : Component) → Option c.Value → Components
  | .name, v => { s with name := v }
  | .tags, v => { s with tags := v }
  | .transform, v => { s with transform := v }
  | .properties, v => { s with properties := v }
  | .parent, v => { s with parent := v }
  | .flex, v => { s with flex := v }
  | .layout, v => { s with layout := v }

section Values

@[simp] theorem get_set_self (s : Components) (c : Component) (v : Option c.Value) :
    (s.set c v).get c = v := by
  cases c <;> rfl

theorem get_set_of_ne (s : Components) {c d : Component} (h : c ≠ d) (v : Option c.Value) :
    (s.set c v).get d = s.get d := by
  cases c <;> cases d <;> simp_all [get, set]

@[simp] theorem get_empty (c : Component) : empty.get c = none := by
  cases c <;> rfl

theorem ext_get {s t : Components} (h : ∀ c, s.get c = t.get c) : s = t := by
  cases s
  cases t
  simp only [Components.mk.injEq]
  exact ⟨h .name, h .tags, h .transform, h .properties, h .parent, h .flex, h .layout⟩

theorem set_get (s : Components) (c : Component) : s.set c (s.get c) = s := by
  cases c <;> rfl

theorem set_set (s : Components) (c : Component) (v w : Option c.Value) :
    (s.set c v).set c w = s.set c w := by
  cases c <;> rfl

theorem set_comm {c d : Component} (h : c ≠ d) (s : Components) (v : Option c.Value)
    (w : Option d.Value) : (s.set c v).set d w = (s.set d w).set c v := by
  refine ext_get fun k => ?_
  by_cases hc : c = k
  · subst hc
    rw [get_set_of_ne _ h.symm, get_set_self, get_set_self]
  by_cases hd : d = k
  · subst hd
    rw [get_set_self, get_set_of_ne _ hc, get_set_self]
  · rw [get_set_of_ne _ hd, get_set_of_ne _ hc, get_set_of_ne _ hc, get_set_of_ne _ hd]

end Values

end Components
end EntityRules
