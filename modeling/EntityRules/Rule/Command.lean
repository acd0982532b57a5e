import EntityRules.Diagnostics
import EntityRules.Rule.Target

/-!
# Commands of rules

**Input.**  A document with one member: `mut` with a list of operations, `deactivate`, or
`loadScene` with a path.

**Algorithm.**  An operation is an object with a `target` and a `value`, an expression.  An
operation whose target is malformed is kept with the reason, since it fails only when it runs.

**Results.**  `Command.read` gives the command or a failure; `Command.changedFields` lists the
fields that a command can change.
-/

namespace EntityRules

/-- An assignment to a place in the document of an entity. -/
structure Operation where
  target : Except TargetFault Target
  value : Json

/-- What a rule does to the entities that its filter keeps. -/
inductive Command where
  /-- Operations on the documents, in order. -/
  | mutate (operations : List Operation)
  /-- The end of the entities. -/
  | deactivate
  /-- A request for another scene. -/
  | loadScene (path : String)

namespace Operation

/-- The operation that a document describes; a missing value is null. -/
def read : Json → Operation
  | .obj fields =>
    { target :=
        match Assoc.find? "target" fields with
        | some target => Target.read target
        | none => .error .missing
      value := (Assoc.find? "value" fields).getD .null }
  | _ => ⟨.error .notAnOperation, .null⟩

/-- The field that an operation changes, if its target is well formed. -/
def root? (op : Operation) : Option String :=
  match op.target with
  | .ok path => some path.root
  | .error _ => none

/-- Equality of targets. -/
def sameTarget : Except TargetFault Target → Except TargetFault Target → Bool
  | .ok p, .ok q => p == q
  | .error e, .error f => e == f
  | _, _ => false

/-- Equality of operations. -/
def beq (a b : Operation) : Bool := sameTarget a.target b.target && a.value == b.value

instance : BEq Operation := ⟨beq⟩

end Operation

namespace Command

/-- The command that a document describes. -/
def read : Json → Except Failure Command
  | .obj [(kind, payload)] =>
    if kind = "mut" then
      match payload with
      | .arr operations => .ok (.mutate (operations.map Operation.read))
      | _ => .error (.malformed "command 'mut'" "expected a list of operations")
    else if kind = "deactivate" then .ok .deactivate
    else if kind = "loadScene" then
      match payload with
      | .str path =>
        if path = "" then .error (.malformed "command 'loadScene'" "expected a scene path")
        else .ok (.loadScene path)
      | _ => .error (.malformed "command 'loadScene'" "expected a scene path")
    else .error (.malformed "command" ("unknown command '" ++ kind ++ "'"))
  | .obj fields =>
    .error (.malformed "command" ("expected exactly one key, found " ++ toString fields.length))
  | _ => .error (.malformed "command" "expected a single-key object")

/-- Appends a text unless it is there. -/
def addOnce (found : List String) (text : String) : List String :=
  if text ∈ found then found else found ++ [text]

/-- The fields that a command can change, each once, in the order in which they come up. -/
def changedFields : Command → List String
  | .mutate operations => (operations.filterMap Operation.root?).foldl addOnce []
  | _ => []

/-- Equality of commands. -/
def beq : Command → Command → Bool
  | .mutate a, .mutate b => a == b
  | .deactivate, .deactivate => true
  | .loadScene p, .loadScene q => p == q
  | _, _ => false

instance : BEq Command := ⟨beq⟩

end Command
end EntityRules
