import EntityRules.Rule.Pass

/-!
# The pass over the rules without memory

**Input.**  As for `Driver.run`, less the driver.

**Algorithm.**  Nothing is kept from one use to the next: every document is read from the store
when it is needed, and every context is built from its parts.  A rule whose filter gives a list
names entities by the `_index` of the survivors that are not null; the command then runs on
these entities in order.  Failures are listed rather than reported.

**Results.**  `Plain.run` gives the store, the report and the failures in the order in which they
are met.
-/

namespace EntityRules

/-- What a pass has done so far. -/
structure Plain where
  store : Store
  report : Report := {}
  failures : List Failure := []

namespace Plain

/-- The time since the last step as a document. -/
def timeOf (deltaTime : Float) : Json := .obj [("deltaTime", .ofFloat deltaTime)]

/-- The scope of a filter. -/
def filterScope (time : Json) (documents : List Json) : Fields :=
  [("entities", .arr documents), ("step", time)]

/-- The scope of operations on a document. -/
def operationScope (time : Json) (survivors : List Json) (document : Json) : Fields :=
  [("entities", .arr survivors), ("self", document), ("step", time)]

/-- Lists failures. -/
def note (p : Plain) (errors : List Failure) : Plain :=
  { p with failures := p.failures ++ errors }

/-- Counts an entity that is gone. -/
def skipStale (p : Plain) : Plain :=
  { p with report := { p.report with staleSkips := p.report.staleSkips + 1 } }

/-- Counts an entity that is gone, and lists every other failure. -/
def skip (p : Plain) : Failure → Plain
  | .staleReference _ => p.skipStale
  | e => p.note [e]

/-! ## Filters -/

/-- The documents of the entities of a set that are still active, in ascending order. -/
def documents (s : Store) (found : EntitySet) : List Json :=
  found.members.filterMap (Document.read? s)

/-- The survivors of the filter of a rule, or the failure for which the rule is skipped. -/
def survivors (table : Expr.Operators) (time : Json) (r : Registry) (s : Store)
    (active : ActiveRule) : Except Failure (List Json) :=
  match r.found? active.selector with
  | none => .error (.evaluation active.rule.label "selector is not tracked")
  | some found =>
    let scope := filterScope time (documents s found)
    match Expr.evaluate table active.rule.filter (.obj scope) with
    | .ok (.arr survivors) => .ok survivors
    | .ok other =>
      .error (.evaluation active.rule.label ("filter must produce a list, got " ++ other.kindName))
    | .error e => .error (.evaluation active.rule.label e.message)

/-- What the survivors that are not null name: an entity or a failure each. -/
def answers (s : Store) (survivors : List Json) : List (Except Failure Nat) :=
  (survivors.filter (!·.isNull)).map s.resolve

/-- The entities that survivors name. -/
def targets (s : Store) (survivors : List Json) : List Nat :=
  (answers s survivors).filterMap fun answer => answer.toOption

/-- Why survivors name no entity. -/
def faults (s : Store) (survivors : List Json) : List Failure :=
  (answers s survivors).filterMap fun
    | .ok _ => none
    | .error e => some e

/-! ## Commands -/

/-- Ends an entity. -/
def deactivate (p : Plain) (e : Nat) : Plain :=
  if p.store.isActive e then
    { p with
      store := (p.store.deactivate e).1
      report :=
        { p.report with entitiesDeactivated := p.report.entitiesDeactivated + 1 } }
  else p

/-- Whether a target of the operations begins with a field. -/
def touches (operations : List Operation) (field : String) : Bool :=
  operations.any fun op =>
    match op.target with
    | .ok target => target.segments.head? == some field
    | .error _ => false

/-- The members of a document that operations touch, and no others. -/
def touched (operations : List Operation) : Json → Json
  | .obj fields => .obj (fields.filter fun entry => touches operations entry.1)
  | _ => .obj []

/-- Writes the members of a document that operations touch to an entity. -/
def write (p : Plain) (document : Json) (operations : List Operation) (e : Nat) : Plain :=
  match Document.write (touched operations document) e p.store with
  | .ok o =>
    { store := o.store
      report := { p.report with entitiesWritten := p.report.entitiesWritten + 1 }
      failures := p.failures ++ o.failures }
  | .error e => p.skip e

/-- Reads the document of an entity, runs operations on it, and writes the members that they
touch to the entity that the document then names. -/
def mutate (table : Expr.Operators) (time : Json) (label : String)
    (operations : List Operation) (survivors : List Json) (p : Plain) (e : Nat) : Plain :=
  match Document.read? p.store e with
  | none => p.skipStale
  | some document =>
    let scope := operationScope time survivors document
    let o := Mutation.run table label operations (.obj scope)
    let document := (o.context.get? "self").getD .null
    let p := p.note o.failures
    match p.store.resolve document with
    | .ok target => p.write document operations target
    | .error e => p.skip e

/-- Runs the command of a rule on entities; without any, no scene is requested. -/
def execute (table : Expr.Operators) (time : Json) (rule : Rule) (survivors : List Json)
    (entities : List Nat) (p : Plain) : Plain :=
  match rule.command with
  | .deactivate => entities.foldl deactivate p
  | .loadScene path =>
    if entities = [] then p
    else { p with report := { p.report with sceneRequest := some path } }
  | .mutate operations =>
    entities.foldl (mutate table time rule.label operations survivors) p

/-- Runs a rule. -/
def runRule (table : Expr.Operators) (time : Json) (r : Registry) (p : Plain)
    (active : ActiveRule) : Plain :=
  match survivors table time r p.store active with
  | .error e =>
    { p.note [e] with report := { p.report with rulesSkipped := p.report.rulesSkipped + 1 } }
  | .ok survivors =>
    let p := { p with report := { p.report with rulesRun := p.report.rulesRun + 1 } }
    execute table time active.rule survivors (targets p.store survivors)
      ((faults p.store survivors).foldl skip p)

/-- Runs every active rule once. -/
def run (table : Expr.Operators) (deltaTime : Float) (b : RuleBook) (r : Registry)
    (s : Store) : Plain :=
  b.toList.foldl (runRule table (timeOf deltaTime) r) { store := s }

end Plain
end EntityRules
