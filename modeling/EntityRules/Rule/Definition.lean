import EntityRules.Rule.Command
import EntityRules.Selector.Reader
import EntityRules.Text.Visible

/-!
# Rules as they are written

**Input.**  A document with the members `name`, `from`, `where` and `do`, or a list of these
four values.

**Algorithm.**  `RuleDefinition.decode` checks the kinds of the members in the order of the keys,
and of a list in the order of the items, before it asks what is missing.  `Rule.compile` reads the
selector and then the command.

**Results.**  Both steps say what is wrong; a rule without a filter keeps all entities.
-/

namespace EntityRules

/-! ## Definitions -/

/-- A rule as it is written. -/
structure RuleDefinition where
  name : Option String := none
  source : String
  filter : Json
  command : Json

/-- Why a document is no definition. -/
inductive DecodeFault where
  | notAString (value : Json)
  | notADefinition (value : Json)
  | missing (field : String)
  | tooShort (count : Nat)
  | tooLong (count : Nat)

namespace RuleDefinition

/-- The filter that keeps all entities. -/
def keepAll : Json := .obj [("var", .str "entities")]

/-- The kind of a value in words. -/
def kindOf : Json → String
  | .null => "null"
  | .bool b => "boolean `" ++ (if b then "true" else "false") ++ "`"
  | .num (.int n _) => "integer `" ++ toString n ++ "`"
  | .num (.real x _) => "floating point `" ++ Json.floatText x ++ "`"
  | .str s => "string " ++ Text.quoteVisible s
  | .arr _ => "sequence"
  | .obj _ => "map"

end RuleDefinition

/-- The wording of a fault. -/
def DecodeFault.message : DecodeFault → String
  | .notAString value => "invalid type: " ++ RuleDefinition.kindOf value ++ ", expected a string"
  | .notADefinition value =>
    "invalid type: " ++ RuleDefinition.kindOf value ++ ", expected struct RuleDef"
  | .missing field => "missing field `" ++ field ++ "`"
  | .tooShort count =>
    "invalid length " ++ toString count ++ ", expected struct RuleDef with 4 elements"
  | .tooLong count =>
    "invalid length " ++ toString count ++ ", expected fewer elements in array"

namespace RuleDefinition

/-- A text. -/
def decodeText : Json → Except DecodeFault String
  | .str s => .ok s
  | value => .error (.notAString value)

/-- A text or null. -/
def decodeName : Json → Except DecodeFault (Option String)
  | .null => .ok none
  | value => (decodeText value).map some

/-- A member, if it is there, by a decoder. -/
def decodeMember {α : Type} (decode : Json → Except DecodeFault α) (fields : Fields)
    (key : String) : Except DecodeFault (Option α) :=
  match Assoc.find? key fields with
  | some value => (decode value).map some
  | none => .ok none

/-- The definition that the members of an object give. -/
def decodeFields (fields : Fields) : Except DecodeFault RuleDefinition := do
  let source ← decodeMember decodeText fields "from"
  let name ← decodeMember decodeName fields "name"
  match source, Assoc.find? "do" fields with
  | some source, some command =>
    let filter := (Assoc.find? "where" fields).getD keepAll
    pure ⟨name.join, source, filter, command⟩
  | none, _ => .error (.missing "from")
  | some _, none => .error (.missing "do")

/-- The definition that the items of a list give. -/
def decodeItems : List Json → Except DecodeFault RuleDefinition
  | [] => .error (.tooShort 1)
  | [name] => do
    let _ ← decodeName name
    .error (.tooShort 1)
  | name :: source :: rest => do
    let name ← decodeName name
    let source ← decodeText source
    match rest with
    | [filter, command] => pure ⟨name, source, filter, command⟩
    | _ :: _ :: more => .error (.tooLong (4 + more.length))
    | _ => .error (.tooShort 3)

/-- The definition that a document gives. -/
def decode : Json → Except DecodeFault RuleDefinition
  | .obj fields => decodeFields fields
  | .arr items => decodeItems items
  | value => .error (.notADefinition value)

/-- A definition as a document; no name is left out. -/
def toJson (d : RuleDefinition) : Json :=
  .obj ([("do", d.command), ("from", .str d.source)]
    ++ (d.name.map fun name => ("name", Json.str name)).toList ++ [("where", d.filter)])

end RuleDefinition

/-! ## Compiled rules -/

/-- A rule with its selector and its command read. -/
structure Rule where
  label : String
  source : Selector
  filter : Json
  command : Command

namespace Rule

/-- Equality of rules. -/
def beq (a b : Rule) : Bool :=
  a.label == b.label && a.source == b.source && a.filter == b.filter && a.command == b.command

instance : BEq Rule := ⟨beq⟩

/-- Names the rule in a failure of its command. -/
def inRule (label : String) : Failure → Failure
  | .malformed context message => .malformed (context ++ " of rule '" ++ label ++ "'") message
  | other => other

/-- Reads the selector and the command of a definition. -/
def compile (d : RuleDefinition) : Except Failure Rule :=
  let label := d.name.getD d.source
  match Selector.read d.source with
  | .error e =>
    .error (.malformed ("selector '" ++ d.source ++ "' of rule '" ++ label ++ "'") e.message)
  | .ok source =>
    match Command.read d.command with
    | .error e => .error (inRule label e)
    | .ok command => .ok ⟨label, source, d.filter, command⟩

end Rule
end EntityRules
