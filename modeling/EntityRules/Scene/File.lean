import EntityRules.Json.Record
import EntityRules.Rule.Definition

/-!
# Scenes

**Input.**  The text of a scene: a record of the lists `entities`, `rules` and `globalRules`.

**Algorithm.**  The lists may be absent.  Each rule is decoded and compiled on its own; one that
fails becomes an error that names its place, and the others stay.  The errors of `rules` come
before those of `globalRules`.

**Results.**  `Scene.compile` compiles the rules; `Scene.load` starts from the
bytes of a file.
-/

namespace EntityRules

/-- A scene as it is written. -/
structure SceneSource where
  entities : List Json := []
  rules : List Json := []
  globalRules : List Json := []

namespace SceneSource

/-- The keys of the lists, in order. -/
def keys : List String := ["entities", "rules", "globalRules"]

/-- The nesting that is left for the items of a list of the record. -/
def itemDepth : Nat := Json.maxDepth - 2

/-- A list of the record. -/
def section? (fields : List (String × Written)) (key : String) : Option (List Json) :=
  match Assoc.find? key fields with
  | none => some []
  | some (.array items) => Written.itemsToJson? itemDepth items
  | some _ => none

/-- Reads a scene. -/
def read? (text : String) : Option SceneSource := do
  let written ← Written.read? text.toList
  let fields ← written.record? keys
  let entities ← section? fields "entities"
  let rules ← section? fields "rules"
  let globalRules ← section? fields "globalRules"
  pure ⟨entities, rules, globalRules⟩

end SceneSource

/-- Why there is no scene at a path. -/
inductive SceneError where
  /-- The file cannot be read as a text. -/
  | unreadable (path : String)
  /-- The text is not that of a scene. -/
  | unparsable (path : String)
deriving DecidableEq, Repr

/-- The wording of an error. -/
def SceneError.message : SceneError → String
  | .unreadable path => "failed to read scene " ++ path ++ ": "
  | .unparsable path => "failed to parse scene " ++ path ++ ": "

/-- A scene with its rules compiled, and the errors of those that were not. -/
structure Scene where
  source : String
  entities : List Json
  rules : List Rule
  globalRules : List Rule
  errors : List Failure

namespace Scene

/-- Decodes and compiles the rule at a place. -/
def compileAt (key : String) (i : Nat) (value : Json) : Except Failure Rule :=
  match RuleDefinition.decode value with
  | .ok d => Rule.compile d
  | .error fault => .error (.malformed (key ++ "[" ++ toString i ++ "]") fault.message)

/-- Decodes and compiles the rules of a list from a place on. -/
def compileFrom (key : String) : Nat → List Json → List Rule × List Failure
  | _, [] => ([], [])
  | i, value :: rest =>
    let (rules, errors) := compileFrom key (i + 1) rest
    match compileAt key i value with
    | .ok rule => (rule :: rules, errors)
    | .error e => (rules, e :: errors)

/-- Compiles the rules of a scene. -/
def compile (source : String) (file : SceneSource) : Scene :=
  let (rules, errors) := compileFrom "rules" 0 file.rules
  let (globalRules, globalErrors) := compileFrom "globalRules" 0 file.globalRules
  ⟨source, file.entities, rules, globalRules, errors ++ globalErrors⟩

/-- Reads and compiles a scene. -/
def read (source text : String) : Except SceneError Scene :=
  match SceneSource.read? text with
  | some file => .ok (compile source file)
  | none => .error (.unparsable source)

/-- Reads and compiles a scene from the bytes of a file, if it is there. -/
def load (path : String) (content : Option ByteArray) : Except SceneError Scene :=
  match content.bind String.fromUTF8? with
  | some text => read path text
  | none => .error (.unreadable path)

end Scene
end EntityRules
