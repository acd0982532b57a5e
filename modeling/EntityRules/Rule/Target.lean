import EntityRules.Json.Text

/-!
# Paths of targets

**Input.**  A document that names a place in documents: a text, or an object with one member
whose key is the first segment and whose value names the rest.

**Algorithm.**  A path has at least one segment, the last of which is not empty.  `assign` puts
a value at the place, making objects on the way where there is nothing or null; it goes
through no other value.

**Results.**  `Target.read` and `Target.nest` are the two directions between documents
and paths.
-/

namespace EntityRules

/-- Why an operation has no target. -/
inductive TargetFault where
  | notAnOperation
  | missing
  | emptySegment
  | keyCount (found : Nat)
  | notASegment (text : String)
deriving DecidableEq, Repr

/-- The wording of a fault. -/
def TargetFault.message : TargetFault → String
  | .notAnOperation => "operation must be an object"
  | .missing => "missing 'target'"
  | .emptySegment => "empty path segment"
  | .keyCount n => "path step must have exactly one key, found " ++ toString n
  | .notASegment text => "path segment must be a string or object, found " ++ text

/-- A path of segments: the steps and the leaf. -/
structure Target where
  steps : List String
  leaf : String
  leaf_ne_empty : leaf ≠ ""
deriving DecidableEq

namespace Target

/-- All segments in order. -/
def segments (p : Target) : List String := p.steps ++ [p.leaf]

/-- The first segment. -/
def root (p : Target) : String := p.steps.headD p.leaf

/-- The segments joined by dots. -/
def text (p : Target) : String := ".".intercalate p.segments

/-- Puts a step before a path. -/
def cons (step : String) (p : Target) : Target := { p with steps := step :: p.steps }

/-- The path that a document names. -/
def read : Json → Except TargetFault Target
  | .str leaf => if h : leaf = "" then .error .emptySegment else .ok ⟨[], leaf, h⟩
  | .obj [(step, rest)] => (read rest).map (cons step)
  | .obj fields => .error (.keyCount fields.length)
  | other => .error (.notASegment other.text)

/-- The document that names a path. -/
def nest (p : Target) : Json :=
  p.steps.foldr (fun step rest => .obj [(step, rest)]) (.str p.leaf)

/-- The failure of an assignment: the segment that is not inside an object. -/
structure Blocked where
  segment : String
deriving DecidableEq, Repr

/-- The wording of the failure. -/
def Blocked.message (b : Blocked) : String := "'" ++ b.segment ++ "' is inside a non-object"

/-- The value under a step; an empty object for nothing and for null. -/
def childOrEmpty (fields : Fields) (step : String) : Json :=
  match Assoc.find? step fields with
  | none => .obj []
  | some .null => .obj []
  | some child => child

/-- Puts a value at the end of steps and a leaf. -/
def assignAt (leaf : String) (value : Json) : List String → Json → Except Blocked Json
  | [], .obj fields => .ok (.obj (Assoc.insert leaf value fields))
  | [], _ => .error ⟨leaf⟩
  | step :: rest, .obj fields =>
    (assignAt leaf value rest (childOrEmpty fields step)).map fun child =>
      .obj (Assoc.insert step child fields)
  | step :: _, _ => .error ⟨step⟩

/-- Puts a value at the place that a path names. -/
def assign (p : Target) (document value : Json) : Except Blocked Json :=
  assignAt p.leaf value p.steps document

end Target
end EntityRules
