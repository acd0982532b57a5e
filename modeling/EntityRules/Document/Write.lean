import EntityRules.Diagnostics
import EntityRules.Document.Read
import EntityRules.Json.Text
import EntityRules.Selector.Reader

/-!
# Documents as patches

**Input.**  A document and an active entity.

**Algorithm.**  The fields of the document are written one after another in key order.  A field
that is not there leaves its component alone, an unknown field is ignored, and a malformed
field or part of a field is reported and skipped.  A name or a set of tags that is already
there is not written again, so it does not disturb the revision.

**Results.**  `Document.write` gives the store, the failures in the order in which they were
met, and the number of fields written.  It refuses an entity that is not active and a document
that is no object, and then writes nothing.
-/

namespace EntityRules
namespace Document

/-! ## Values of fields -/

/-- The words for a value of the wrong kind. -/
def found (expected : String) (value : Json) : String :=
  "expected " ++ expected ++ ", found " ++ value.text

/-- A number of single precision. -/
def single? (value : Json) : Option Float32 := value.float?.map Numeric.narrow

/-- The number under a name. -/
def component (fields : Fields) (name : String) : Except String Float32 :=
  match Assoc.find? name fields with
  | none => .error ("missing component '" ++ name ++ "'")
  | some value =>
    match single? value with
    | some x => .ok x
    | none => .error ("component '" ++ name ++ "' must be a number, found " ++ value.text)

/-- The words for a value that should be an object with the given members. -/
def notAnObject (names : List String) : String :=
  "expected an object with " ++ ", ".intercalate names

/-- A vector, all of whose components must be there. -/
def toVec3 : Json → Except String Vec3
  | .obj fields => do
    let x ← component fields "x"
    let y ← component fields "y"
    let z ← component fields "z"
    pure ⟨x, y, z⟩
  | _ => .error (notAnObject ["x", "y", "z"])

/-- A rotation, all of whose components must be there. -/
def toRotation : Json → Except String Rotation
  | .obj fields => do
    let x ← component fields "x"
    let y ← component fields "y"
    let z ← component fields "z"
    let w ← component fields "w"
    pure ⟨x, y, z, w⟩
  | _ => .error (notAnObject ["x", "y", "z", "w"])

/-- Lengths of edges, all of which must be there, or null for none. -/
def toEdges : Json → Except String (Option Edges)
  | .null => .ok none
  | .obj fields => do
    let top ← component fields "top"
    let right ← component fields "right"
    let bottom ← component fields "bottom"
    let left ← component fields "left"
    pure (some ⟨top, right, bottom, left⟩)
  | _ => .error (notAnObject ["top", "right", "bottom", "left"])

/-- A length, or null for none. -/
def toSingle (value : Json) : Except String (Option Float32) :=
  match value with
  | .null => .ok none
  | value =>
    match single? value with
    | some x => .ok (some x)
    | none => .error (found "a number" value)

/-- A member of an enumeration by its symbol, or null for none. -/
def toSymbol (α : Type) [Symbols α] (value : Json) : Except String (Option α) :=
  match value with
  | .null => .ok none
  | .str text =>
    match Symbols.ofSymbol? text with
    | some member => .ok (some member)
    | none =>
      .error ("unknown symbol '" ++ text ++ "', expected one of "
        ++ ", ".intercalate (Symbols.symbols α))
  | value => .error (found "a symbol string" value)

/-- The value of a layout attribute, or null for none. -/
def toAttribute (value : Json) : (a : FlexAttribute) → Except String (Option a.Value)
  | .direction => toSymbol FlexDirection value
  | .justifyContent => toSymbol JustifyContent value
  | .alignItems => toSymbol Align value
  | .alignSelf => toSymbol Align value
  | .wrap => toSymbol FlexWrap value
  | .positionType => toSymbol PositionType value
  | .border => toEdges value
  | .margin => toEdges value
  | .padding => toEdges value
  | .basis => toSingle value
  | .gap => toSingle value
  | .grow => toSingle value
  | .height => toSingle value
  | .maxHeight => toSingle value
  | .maxWidth => toSingle value
  | .minHeight => toSingle value
  | .minWidth => toSingle value
  | .shrink => toSingle value
  | .width => toSingle value

/-! ## Patches of one component -/

/-- A value under a patch: how it is now, whether a part of the patch applied, and the failures
of the parts that did not, the latest first. -/
structure Patched (α : Type) where
  value : α
  applied : Bool := false
  failures : List Failure := []

/-- Applies or reports one part of a patch. -/
def Patched.step {α : Type} (p : Patched α) (field : String) (result : Except String α) :
    Patched α :=
  match result with
  | .ok value => { p with value, applied := true }
  | .error message => { p with failures := .conversion field message :: p.failures }

/-- The transform with one vector replaced; none for a key that is no vector. -/
def patchVector (t : Transform) (key : String) (value : Json) :
    Option (Except String Transform) :=
  if key = "position" then some ((toVec3 value).map fun v => { t with position := v })
  else if key = "scale" then some ((toVec3 value).map fun v => { t with scale := v })
  else if key = "anchor" then some ((toVec3 value).map fun v => { t with anchor := v })
  else if key = "rotation" then some ((toRotation value).map fun q => { t with rotation := q })
  else none

/-- A transform after a patch. -/
def patchTransform (t : Transform) (patch : Fields) : Patched Transform :=
  patch.foldl
    (fun p (key, value) =>
      match patchVector p.value key value with
      | some result => p.step ("transform." ++ key) result
      | none => p)
    { value := t }

/-- A style after a patch. -/
def patchFlex (style : FlexStyle) (patch : Fields) : Patched FlexStyle :=
  patch.foldl
    (fun p (key, value) =>
      match FlexAttribute.ofKey? key with
      | some a => p.step ("flex." ++ key) ((toAttribute value a).map (p.value.set a))
      | none => p)
    { value := style }

/-- What a patch says of a property: the new value, or none for a property to be removed. -/
def propertyChange (value : Json) : Except String (Option Property) :=
  match value with
  | .null => .ok none
  | .bool b => .ok (some (.bool b))
  | .num n => .ok (some (.number n.toFloat))
  | .str s => .ok (some (.text s))
  | _ => .error "expected a string, number or bool"

/-- The changes that a patch makes to properties. -/
def propertyChanges (patch : Fields) : List (String × Option Property) :=
  patch.filterMap fun (key, value) =>
    match propertyChange value with
    | .ok change => some (key, change)
    | .error _ => none

/-- The failures of the parts of a patch that are no properties. -/
def propertyFailures (patch : Fields) : List Failure :=
  patch.filterMap fun (key, value) =>
    match propertyChange value with
    | .ok _ => none
    | .error message => some (.conversion ("properties." ++ key) message)

/-- Properties after changes. -/
def changeProperties (properties : Properties) (changes : List (String × Option Property)) :
    Properties :=
  changes.foldl
    (fun properties (key, change) =>
      match change with
      | some value => Assoc.insert key value properties
      | none => Assoc.erase key properties)
    properties

/-! ## Fields -/

/-- The outcome of writing a field: the store, the failures, and whether the field was written. -/
structure FieldOutcome where
  store : Store
  failures : List Failure
  written : Bool

/-- The outcome of a field that is refused as a whole. -/
def refused (s : Store) (e : Failure) : FieldOutcome := ⟨s, [e], false⟩

/-- Gives an active entity a component, after failures of parts of the field. -/
def put (s : Store) (c : Component) (e : Nat) (value : c.Value) (failures : List Failure) :
    FieldOutcome :=
  match s.insert c e value with
  | (s, .ok _) => ⟨s, failures, true⟩
  | (s, .error _) => ⟨s, failures ++ [.staleReference e], false⟩

/-- Writes the name. -/
def writeId (s : Store) (e : Nat) (value : Json) : FieldOutcome :=
  match value with
  | .str name =>
    if name = "" then refused s (.conversion "id" "expected a non-empty string")
    else if s.get? .name e = some name then ⟨s, [], true⟩
    else put s .name e name []
  | _ => refused s (.conversion "id" "expected a non-empty string")

/-- The tags of a list of texts. -/
def toTags : List Json → Tags → Except String Tags
  | [], tags => .ok tags
  | .str tag :: rest, tags => toTags rest (tags.insert tag)
  | item :: _, _ => .error (found "a string tag" item)

/-- Writes the tags. -/
def writeTags (s : Store) (e : Nat) (value : Json) : FieldOutcome :=
  match value with
  | .arr items =>
    match toTags items .empty with
    | .error message => refused s (.conversion "tags" message)
    | .ok tags =>
      if s.get? .tags e = some tags then ⟨s, [], true⟩ else put s .tags e tags []
  | _ => refused s (.conversion "tags" "expected a list of strings")

/-- Writes the parent; null removes it. -/
def writeParent (s : Store) (e : Nat) (value : Json) : FieldOutcome :=
  match value with
  | .null => ⟨(s.remove .parent e).1, [], true⟩
  | .str text =>
    match Selector.read text with
    | .ok selector => put s .parent e selector []
    | .error fault =>
      refused s (.malformed ("parent selector '" ++ text ++ "'") fault.message)
  | value => refused s (.conversion "parent" (found "a selector string or null" value))

/-- Writes properties; null removes a key, and only a new value creates the component. -/
def writeProperties (s : Store) (e : Nat) (value : Json) : FieldOutcome :=
  match value with
  | .obj patch =>
    let changes := propertyChanges patch
    let failures := propertyFailures patch
    if changes.any fun change => change.2.isSome then
      match s.getOrInsert .properties e [] with
      | (s, .ok properties) =>
        ⟨s.put .properties e (some (changeProperties properties changes)), failures, true⟩
      | (s, .error _) => ⟨s, failures ++ [.staleReference e], false⟩
    else
      let (s, _) := s.modify .properties e fun properties =>
        (changeProperties properties changes, ())
      ⟨s, failures, true⟩
  | _ => refused s (.conversion "properties" "expected an object")

/-- Writes vectors of the transform. -/
def writeTransform (s : Store) (e : Nat) (value : Json) : FieldOutcome :=
  match value with
  | .obj patch =>
    let p := patchTransform ((s.get? .transform e).getD {}) patch
    if p.applied then put s .transform e p.value p.failures.reverse
    else ⟨s, p.failures.reverse, true⟩
  | _ => refused s (.conversion "transform" "expected an object")

/-- Writes layout attributes. -/
def writeFlex (s : Store) (e : Nat) (value : Json) : FieldOutcome :=
  match value with
  | .obj patch =>
    let p := patchFlex ((s.get? .flex e).getD .empty) patch
    if p.applied then put s .flex e p.value p.failures.reverse
    else ⟨s, p.failures.reverse, true⟩
  | _ => refused s (.conversion "flex" "expected an object")

/-- Writes a field; none for a field that is not known or can only be read. -/
def writeField (s : Store) (e : Nat) (key : String) (value : Json) : Option FieldOutcome :=
  if key = "id" then some (writeId s e value)
  else if key = "tags" then some (writeTags s e value)
  else if key = "transform" then some (writeTransform s e value)
  else if key = "properties" then some (writeProperties s e value)
  else if key = "parent" then some (writeParent s e value)
  else if key = "flex" then some (writeFlex s e value)
  else none

/-! ## Documents -/

/-- The outcome of writing fields: the store, the failures, and the number of fields written. -/
structure Outcome where
  store : Store
  failures : List Failure
  count : Nat

/-- Writes fields one after another. -/
def writeFields (s : Store) (e : Nat) : Fields → Outcome
  | [] => ⟨s, [], 0⟩
  | (key, value) :: rest =>
    match writeField s e key value with
    | none => writeFields s e rest
    | some w =>
      let o := writeFields w.store e rest
      ⟨o.store, w.failures ++ o.failures, if w.written then o.count + 1 else o.count⟩

/-- Writes a document to an active entity. -/
def write (document : Json) (e : Nat) (s : Store) : Except Failure Outcome :=
  if s.isActive e then
    match document with
    | .obj fields => .ok (writeFields s e fields)
    | _ => .error (.conversion "document" "expected an object")
  else .error (.staleReference e)

/-- The slot number in a document. -/
def indexOf (document : Json) : Except Failure Nat :=
  match ((document.get? "_index").bind Json.nat?).filter (· < UInt32.size) with
  | some e => .ok e
  | none => .error (.conversion "_index" "expected a non-negative integer index")

end Document
end EntityRules
