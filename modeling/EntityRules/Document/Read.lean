import EntityRules.Entity.Store
import EntityRules.Json.Basic
import EntityRules.Numeric.Decimal

/-!
# Entities as documents

**Input.**  An entity of a store.

**Algorithm.**  A document shows the components that the entity has, in key order: the slot
number under `_index`, the name under `id`, the tags, the transform, the properties, the text of
the parent selector, the layout attributes that are set, and the computed layout.  Numbers of
single precision are shown by their exact value, whole ones as integers.

**Results.**  `Document.read?` gives the document of an active entity; `Document.members` is
what it consists of.
-/

namespace EntityRules
namespace Document

/-- A number of single precision. -/
def ofSingle (x : Float32) : Json := .number (Numeric.widen x)

/-- The members that have a value, in the given order. -/
def present (entries : List (String × Option Json)) : Fields :=
  entries.filterMap fun (key, value) => value.map fun v => (key, v)

/-- A vector. -/
def ofVec3 (v : Vec3) : Json :=
  .obj [("x", ofSingle v.x), ("y", ofSingle v.y), ("z", ofSingle v.z)]

/-- A rotation. -/
def ofRotation (q : Rotation) : Json :=
  .obj [("w", ofSingle q.w), ("x", ofSingle q.x), ("y", ofSingle q.y), ("z", ofSingle q.z)]

/-- A transform. -/
def ofTransform (t : Transform) : Json :=
  .obj [("anchor", ofVec3 t.anchor), ("position", ofVec3 t.position),
    ("rotation", ofRotation t.rotation), ("scale", ofVec3 t.scale)]

/-- A property. -/
def ofProperty : Property → Json
  | .bool b => .bool b
  | .number x => .number x
  | .text s => .str s

/-- Properties. -/
def ofProperties (properties : Properties) : Json :=
  .obj (properties.map fun (key, value) => (key, ofProperty value))

/-- Lengths of edges. -/
def ofEdges (e : Edges) : Json :=
  .obj [("bottom", ofSingle e.bottom), ("left", ofSingle e.left), ("right", ofSingle e.right),
    ("top", ofSingle e.top)]

/-- A member of an enumeration. -/
def ofSymbol {α : Type} [Symbols α] (value : α) : Json := .str (Symbols.symbol value)

/-- The value of a layout attribute. -/
def ofAttribute : (a : FlexAttribute) → a.Value → Json
  | .direction, v => ofSymbol v
  | .justifyContent, v => ofSymbol v
  | .alignItems, v => ofSymbol v
  | .alignSelf, v => ofSymbol v
  | .wrap, v => ofSymbol v
  | .positionType, v => ofSymbol v
  | .border, v => ofEdges v
  | .margin, v => ofEdges v
  | .padding, v => ofEdges v
  | .basis, v => ofSingle v
  | .gap, v => ofSingle v
  | .grow, v => ofSingle v
  | .height, v => ofSingle v
  | .maxHeight, v => ofSingle v
  | .maxWidth, v => ofSingle v
  | .minHeight, v => ofSingle v
  | .minWidth, v => ofSingle v
  | .shrink, v => ofSingle v
  | .width, v => ofSingle v

/-- The layout attributes that are set. -/
def ofFlex (style : FlexStyle) : Json :=
  .obj (present (FlexAttribute.all.map fun a => (a.key, (style.get a).map (ofAttribute a))))

/-- A computed layout. -/
def ofLayout (l : Layout) : Json :=
  .obj [("height", ofSingle l.height), ("width", ofSingle l.width), ("x", ofSingle l.x),
    ("y", ofSingle l.y)]

/-- The document of components under a slot number. -/
def ofComponents (e : Nat) (c : Components) : Fields :=
  present
    [("_index", some (.ofNat e)),
     ("flex", (c.flex.filter (!·.isEmpty)).map ofFlex),
     ("id", c.name.map .str),
     ("layout", c.layout.map ofLayout),
     ("parent", c.parent.map fun s => .str s.text),
     ("properties", c.properties.map ofProperties),
     ("tags", c.tags.map fun t => .ofStrings t.toList),
     ("transform", c.transform.map ofTransform)]

/-- The members of the document of a slot; that of a free slot shows its number only. -/
def members (s : Store) (e : Nat) : Fields :=
  ofComponents e (if s.isActive e then (s.slot e).components else .empty)

/-- The document of an active entity. -/
def read? (s : Store) (e : Nat) : Option Json :=
  if s.isActive e then some (.obj (members s e)) else none

end Document
end EntityRules
