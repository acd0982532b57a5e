import EntityRules.Document.Write
import EntityRules.Rule.Book
import EntityRules.Rule.Mutation

/-!
# The pass over the rules

**Input.**  The active rules, the tracked selectors with their sets, a store, and the time
since the last step.

**Algorithm.**  Each rule in order evaluates its filter on the time and the documents of the
entities in the set of its selector.  The filter must give a list, the survivors.  Each
survivor names an entity by its `_index`, null names none.  Then the command runs: the entities
end, or a scene is requested, or the operations run on the document of each entity and the
fields that they can change are written back to the entity that the document then names.

A pass reads the document of an entity at most once between two changes of it: the documents
read are kept in a column, lent to the filter, and forgotten when their entity is written or
ends.  The scopes of filters and operations are kept from rule to rule, and each use puts its
own values into them.

**Results.**  `Driver.run` gives the driver for the next pass, the store, the diagnostics and a
report of what was done.
-/

namespace EntityRules

/-- What a pass did. -/
structure Report where
  rulesRun : Nat := 0
  rulesSkipped : Nat := 0
  entitiesWritten : Nat := 0
  entitiesDeactivated : Nat := 0
  staleSkips : Nat := 0
  sceneRequest : Option String := none
deriving DecidableEq

/-- What runs the rules: the operators, the documents read in this pass, and the scopes of
filters and of operations. -/
structure Driver where
  table : Expr.Operators
  cache : Column Json
  filterScope : Fields
  mutationScope : Fields

/-- The state of a pass. -/
structure Pass where
  driver : Driver
  store : Store
  diagnostics : Diagnostics
  report : Report

/-- Reads the entity that a document names; it must be active. -/
def Store.resolve (s : Store) (document : Json) : Except Failure Nat :=
  match Document.indexOf document with
  | .error e => .error e
  | .ok e =>
    match s.entity e with
    | .ok e => .ok e
    | .error (.inactive e) => .error (.staleReference e)
    | .error other => .error (.conversion "_index" other.message)

namespace Driver

/-- A driver for the entities below a capacity. -/
def new (table : Expr.Operators) (capacity : Nat) : Driver where
  table
  cache := .ofSize capacity
  filterScope := [("entities", .arr []), ("step", .obj [])]
  mutationScope := [("entities", .arr []), ("self", .null), ("step", .obj [])]

/-- Forgets all documents and puts the time since the last step into the scopes. -/
def begin (d : Driver) (capacity : Nat) (deltaTime : Float) : Driver :=
  let time : Json := .obj [("deltaTime", .ofFloat deltaTime)]
  { d with
    cache := .ofSize (max d.cache.size capacity)
    filterScope := Assoc.insert "step" time d.filterScope
    mutationScope := Assoc.insert "step" time d.mutationScope }

/-- Takes the document of an entity, which is read if it is not kept. -/
def take (d : Driver) (s : Store) (e : Nat) : Driver × Option Json :=
  match d.cache.get? e with
  | some document => ({ d with cache := d.cache.set e none }, some document)
  | none => (d, Document.read? s e)

/-- Keeps the document of an entity. -/
def keep (d : Driver) (e : Nat) (document : Json) : Driver :=
  { d with cache := d.cache.set e (some document) }

/-- Forgets the document of an entity. -/
def forget (d : Driver) (e : Nat) : Driver := { d with cache := d.cache.set e none }

/-- Takes the documents of the entities that are active. -/
def takeAll (d : Driver) (s : Store) : List Nat → Driver × List (Nat × Json)
  | [] => (d, [])
  | e :: rest =>
    match d.take s e with
    | (d, some document) =>
      let (d, lent) := d.takeAll s rest
      (d, (e, document) :: lent)
    | (d, none) => d.takeAll s rest

/-- Keeps documents. -/
def keepAll (d : Driver) (lent : List (Nat × Json)) : Driver :=
  lent.foldl (fun d (e, document) => d.keep e document) d

end Driver

/-- The kind of a value in words. -/
def Json.kindName : Json → String
  | .null => "null"
  | .bool _ => "a bool"
  | .num _ => "a number"
  | .str _ => "a string"
  | .arr _ => "a list"
  | .obj _ => "an object"

namespace Pass

/-- Reports a failure. -/
def fail (p : Pass) (e : Failure) : Pass := { p with diagnostics := p.diagnostics.report e }

/-- Counts an entity that was gone before it could be changed. -/
def skipStale (p : Pass) : Pass :=
  { p with report := { p.report with staleSkips := p.report.staleSkips + 1 } }

/-- Counts an entity that is gone, and reports every other failure. -/
def skipOrFail (p : Pass) : Failure → Pass
  | .staleReference _ => p.skipStale
  | e => p.fail e

/-! ## Filters -/

/-- The survivors of the filter of a rule over a set of entities, or the failure. -/
def filterOver (p : Pass) (rule : Rule) (found : EntitySet) :
    Pass × Except Failure (List Json) :=
  let (driver, lent) := p.driver.takeAll p.store found.members
  let scope := Assoc.insert "entities" (.arr (lent.map (·.2))) driver.filterScope
  let result := Expr.evaluate driver.table rule.filter (.obj scope)
  let driver := { driver with filterScope := Assoc.insert "entities" (.arr []) scope }
  let p := { p with driver := driver.keepAll lent }
  match result with
  | .ok (.arr survivors) => (p, .ok survivors)
  | .ok other =>
    (p, .error (.evaluation rule.label ("filter must produce a list, got " ++ other.kindName)))
  | .error e => (p, .error (.evaluation rule.label e.message))

/-- The survivors of the filter of an active rule, or the failure. -/
def filter (p : Pass) (r : Registry) (active : ActiveRule) :
    Pass × Except Failure (List Json) :=
  match r.found? active.selector with
  | some found => p.filterOver active.rule found
  | none => (p, .error (.evaluation active.rule.label "selector is not tracked"))

/-- The entities that survivors name, in order; the others are counted or reported. -/
def targets (p : Pass) : List Json → Pass × List Nat
  | [] => (p, [])
  | .null :: rest => p.targets rest
  | survivor :: rest =>
    match p.store.resolve survivor with
    | .ok e =>
      let (p, found) := p.targets rest
      (p, e :: found)
    | .error e => (p.skipOrFail e).targets rest

/-! ## Commands -/

/-- Ends an entity. -/
def deactivate (p : Pass) (e : Nat) : Pass :=
  match p.store.deactivate e with
  | (store, true) =>
    { p with
      store
      driver := p.driver.forget e
      report :=
        { p.report with entitiesDeactivated := p.report.entitiesDeactivated + 1 } }
  | (_, false) => p

/-- Moves the given members out of a document. -/
def patchOf (document : Json) (roots : List String) : Json :=
  match document with
  | .obj fields =>
    .obj <| roots.foldl
      (fun patch root =>
        match Assoc.find? root fields with
        | some value => Assoc.insert root value patch
        | none => patch)
      []
  | _ => .obj []

/-- Writes the given members of a document to an entity. -/
def writeBack (p : Pass) (document : Json) (roots : List String) (e : Nat) : Pass :=
  let p :=
    match Document.write (patchOf document roots) e p.store with
    | .ok o =>
      { p with
        store := o.store
        diagnostics := p.diagnostics.reportAll o.failures
        report := { p.report with entitiesWritten := p.report.entitiesWritten + 1 } }
    | .error e => p.skipOrFail e
  { p with driver := p.driver.forget e }

/-- Runs operations on the document of an entity and writes the members that they can change
to the entity that the document then names. -/
def mutate (p : Pass) (label : String) (operations : List Operation) (roots : List String)
    (e : Nat) : Pass :=
  match p.driver.take p.store e with
  | (driver, none) => { p with driver }.skipStale
  | (driver, some document) =>
    let scope := Assoc.insert Mutation.selfKey document driver.mutationScope
    let o := Mutation.run driver.table label operations (.obj scope)
    let document := (o.context.get? Mutation.selfKey).getD .null
    let scope := Assoc.insert Mutation.selfKey .null ((o.context.fields?).getD scope)
    let p :=
      { p with
        driver := { driver with mutationScope := scope }
        diagnostics := p.diagnostics.reportAll o.failures }
    match p.store.resolve document with
    | .ok target => p.writeBack document roots target
    | .error e => p.skipOrFail e

/-- Puts the survivors into the scope of operations. -/
def setSurvivors (p : Pass) (survivors : List Json) : Pass :=
  { p with
    driver :=
      { p.driver with
        mutationScope := Assoc.insert "entities" (.arr survivors) p.driver.mutationScope } }

/-- Runs the command of a rule on the entities that its survivors name. -/
def execute (p : Pass) (rule : Rule) (survivors : List Json) (entities : List Nat) :
    Pass :=
  match rule.command with
  | .deactivate => entities.foldl deactivate p
  | .loadScene path =>
    if entities.isEmpty then p
    else { p with report := { p.report with sceneRequest := some path } }
  | .mutate operations =>
    let roots := rule.command.changedFields
    (entities.foldl (fun p e => p.mutate rule.label operations roots e)
      (p.setSurvivors survivors)).setSurvivors []

/-- Runs a rule. -/
def runRule (r : Registry) (p : Pass) (active : ActiveRule) : Pass :=
  match p.filter r active with
  | (p, .error e) =>
    { p.fail e with report := { p.report with rulesSkipped := p.report.rulesSkipped + 1 } }
  | (p, .ok survivors) =>
    let p := { p with report := { p.report with rulesRun := p.report.rulesRun + 1 } }
    let (p, entities) := p.targets survivors
    p.execute active.rule survivors entities

end Pass

namespace Driver

/-- Runs every active rule once. -/
def run (d : Driver) (deltaTime : Float) (b : RuleBook) (r : Registry) (s : Store)
    (diagnostics : Diagnostics) : Pass :=
  b.toList.foldl (Pass.runRule r) ⟨d.begin s.capacity deltaTime, s, diagnostics, {}⟩

end Driver
end EntityRules
