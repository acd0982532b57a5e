import EntityRules.Json.Record
import EntityRules.Text.Blank

/-!
# Capacities

**Input.**  A text with a record, or variables of the environment.

**Algorithm.**  Every capacity has a default.  A record must be well formed as a whole, with
natural numbers in range; a variable that is not a natural number in range is as good as
unset.

**Results.**  `Config.read?` and `Config.ofVariables` are the two sources; `Config.summary` is
the record on one line.
-/

namespace EntityRules

/-- The capacities of an engine. -/
structure Config where
  globalEntities : UInt32 := 256
  sceneEntities : UInt32 := 2048
  globalRules : Nat := 64
  sceneRules : Nat := 256
  maxSelectors : Nat := 512
  diagnosticHistory : Nat := 256
deriving DecidableEq

namespace Config

/-- The bound of numbers of entities. -/
def entityBound : Nat := UInt32.size

/-- The bound of all other capacities. -/
def sizeBound : Nat := UInt64.size

/-- The keys of a record, in order. -/
def keys : List String :=
  ["globalEntities", "sceneEntities", "globalRules", "sceneRules", "maxSelectors",
   "diagnosticHistory"]

/-- A field of a record, or its default. -/
def field? (fields : List (String × Written)) (key : String) (bound default : Nat) : Option Nat :=
  match Assoc.find? key fields with
  | some value => value.natBelow? bound
  | none => some default

/-- Reads a record. -/
def read? (text : String) : Option Config := do
  let written ← Written.read? text.toList
  let fields ← written.record? keys
  let globalEntities ← field? fields "globalEntities" entityBound 256
  let sceneEntities ← field? fields "sceneEntities" entityBound 2048
  let globalRules ← field? fields "globalRules" sizeBound 64
  let sceneRules ← field? fields "sceneRules" sizeBound 256
  let maxSelectors ← field? fields "maxSelectors" sizeBound 512
  let diagnosticHistory ← field? fields "diagnosticHistory" sizeBound 256
  pure ⟨globalEntities.toUInt32, sceneEntities.toUInt32, globalRules, sceneRules, maxSelectors,
    diagnosticHistory⟩

/-- A natural number below a bound between blanks, or a default. -/
def override (value : Option String) (bound default : Nat) : Nat :=
  match value.bind fun text => Numeric.readNat? (Text.trim text.toList) with
  | some n => if n < bound then n else default
  | none => default

/-- The capacities that variables give. -/
def ofVariables (value : String → Option String) : Config where
  globalEntities := (override (value "RULES_GLOBAL_ENTITIES") entityBound 256).toUInt32
  sceneEntities := (override (value "RULES_SCENE_ENTITIES") entityBound 2048).toUInt32
  globalRules := override (value "RULES_GLOBAL_RULES") sizeBound 64
  sceneRules := override (value "RULES_SCENE_RULES") sizeBound 256
  maxSelectors := override (value "RULES_MAX_SELECTORS") sizeBound 512
  diagnosticHistory := override (value "RULES_DIAGNOSTIC_HISTORY") sizeBound 256

/-- All capacities on one line. -/
def summary (c : Config) : String :=
  "EngineConfig \x7b global_entities: " ++ toString c.globalEntities.toNat
    ++ ", scene_entities: " ++ toString c.sceneEntities.toNat
    ++ ", global_rules: " ++ toString c.globalRules
    ++ ", scene_rules: " ++ toString c.sceneRules
    ++ ", max_selectors: " ++ toString c.maxSelectors
    ++ ", diagnostic_history: " ++ toString c.diagnosticHistory ++ " \x7d"

end Config
end EntityRules
