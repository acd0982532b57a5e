import EntityRules.Config
import EntityRules.Rule.Pass
import EntityRules.Scene.File

/-!
# The engine

**Input.**  Capacities, documents of entities, rules, scenes and collision events.

**Algorithm.**  The engine owns the store, the tracked selectors, the rules, the driver and the
diagnostics.  A step brings the sets of the selectors up to date and runs every rule once.  A
scene replaces the former one: its rules and entities go first, together with the events of
entities that are no more; then the entities of the new scene come, then its global rules
unless they are already active, then its own rules.

**Results.**  Nothing here fails; what could not be done is in the diagnostics.
-/

namespace EntityRules

/-- What a scene brought. -/
structure SceneSummary where
  entities : Nat := 0
  rules : Nat := 0
  globalRules : Nat := 0
  /-- The entities, rules and errors that were reported and left out. -/
  dropped : Nat := 0
deriving DecidableEq

/-- All that a step needs. -/
structure Engine where
  config : Config
  store : Store
  selectors : Registry
  rules : RuleBook
  driver : Driver
  diagnostics : Diagnostics
  steps : Nat

/-- The words for an entity of a pool. -/
def PoolKind.entityName : PoolKind → String
  | .global => "global entity"
  | .scene => "scene entity"

namespace Engine

/-- An engine without entities and rules. -/
def new (config : Config) (table : Expr.Operators) : Engine :=
  let store := Store.new config.globalEntities config.sceneEntities
  { config
    store
    selectors := .new config.maxSelectors store.capacity
    rules := .new config.globalRules config.sceneRules
    driver := .new table store.capacity
    diagnostics := .new config.diagnosticHistory
    steps := 0 }

/-- Reports a failure. -/
def report (g : Engine) (e : Failure) : Engine :=
  { g with diagnostics := g.diagnostics.report e }

/-! ## Rules -/

/-- Activates a compiled rule. -/
def activate (g : Engine) (partition : Partition) (rule : Rule) :
    Engine × Option RuleHandle :=
  let (rules, selectors, diagnostics, handle) :=
    g.rules.tryActivate partition rule g.selectors g.diagnostics
  ({ g with rules, selectors, diagnostics }, handle)

/-- Compiles and activates a rule. -/
def loadRule (g : Engine) (partition : Partition) (d : RuleDefinition) :
    Engine × Option RuleHandle :=
  match Rule.compile d with
  | .ok rule => g.activate partition rule
  | .error e => (g.report e, none)

/-- Compiles and activates rules; also how many there are. -/
def loadRules (g : Engine) (partition : Partition) : List RuleDefinition → Engine × Nat
  | [] => (g, 0)
  | d :: rest =>
    let (g, handle) := g.loadRule partition d
    let (g, count) := g.loadRules partition rest
    (g, if handle.isSome then count + 1 else count)

/-- Takes all rules away. -/
def clearRules (g : Engine) : Engine :=
  let (rules, selectors) := g.rules.clearAll g.selectors
  { g with rules, selectors }

/-! ## Entities -/

/-- Activates an entity and writes a document to it. -/
def spawn (g : Engine) (pool : PoolKind) (document : Json) : Engine × Option Nat :=
  match g.store.activate pool with
  | (_, .error _) =>
    (g.report (.capacityExceeded pool.entityName (g.store.pool pool).capacity), none)
  | (store, .ok e) =>
    match Document.write document e store with
    | .ok o =>
      ({ g with store := o.store, diagnostics := g.diagnostics.reportAll o.failures }, some e)
    | .error fault => ({ g with store }.report fault, some e)

/-- The document of an active entity. -/
def document? (g : Engine) (e : Nat) : Option Json := Document.read? g.store e

/-- The entity that the parent selector of an entity selects now. -/
def parentOf? (g : Engine) (e : Nat) : Option Nat :=
  (g.store.get? .parent e).bind fun parent => g.selectors.firstMatch? parent g.store

/-- Notes an event for the next step. -/
def pulse (g : Engine) (kind : EventKind) (e : Nat) : Engine :=
  { g with selectors := g.selectors.pulse kind e }

/-! ## Steps -/

/-- Brings the sets of the selectors up to date; also whether they were not. -/
def refresh (g : Engine) : Engine × Bool :=
  let (selectors, done) := g.selectors.refresh g.store
  ({ g with selectors }, done)

/-- Runs every rule once. -/
def step (g : Engine) (deltaTime : Float) : Engine × Report :=
  let (g, _) := g.refresh
  let p := g.driver.run deltaTime g.rules g.selectors g.store g.diagnostics
  ({ g with
      driver := p.driver
      store := p.store
      diagnostics := p.diagnostics
      steps := g.steps + 1 },
    p.report)

/-! ## Scenes -/

/-- An engine and what a scene brought so far. -/
structure Loading where
  engine : Engine
  summary : SceneSummary

/-- Counts what was left out. -/
def Loading.drop (l : Loading) (engine : Engine) : Loading :=
  ⟨engine, { l.summary with dropped := l.summary.dropped + 1 }⟩

/-- Adds an entity of a scene. -/
def Loading.addEntity (l : Loading) (document : Json) : Loading :=
  match l.engine.spawn .scene document with
  | (g, some _) => ⟨g, { l.summary with entities := l.summary.entities + 1 }⟩
  | (g, none) => l.drop g

/-- Adds a global rule, unless an equal one is active. -/
def Loading.addGlobalRule (l : Loading) (rule : Rule) : Loading :=
  if (l.engine.rules.find? .global rule).isSome then l
  else
    match l.engine.activate .global rule with
    | (g, some _) => ⟨g, { l.summary with globalRules := l.summary.globalRules + 1 }⟩
    | (g, none) => l.drop g

/-- Adds a rule of a scene. -/
def Loading.addRule (l : Loading) (rule : Rule) : Loading :=
  match l.engine.activate .scene rule with
  | (g, some _) => ⟨g, { l.summary with rules := l.summary.rules + 1 }⟩
  | (g, none) => l.drop g

/-- Ends the scene: its rules, its entities, and the events of what is no longer active. -/
def endScene (g : Engine) : Engine :=
  let (rules, selectors) := g.rules.reset g.selectors
  let (store, _) := g.store.resetScene
  { g with rules, store, selectors := selectors.dropStaleEvents store }

/-- Replaces the scene; also what the new one brought. -/
def applyScene (g : Engine) (scene : Scene) : Engine × SceneSummary :=
  let g := g.endScene
  let g := { g with diagnostics := g.diagnostics.reportAll scene.errors }
  let l : Loading := ⟨g, { dropped := scene.errors.length }⟩
  let l := scene.entities.foldl Loading.addEntity l
  let l := scene.globalRules.foldl Loading.addGlobalRule l
  let l := scene.rules.foldl Loading.addRule l
  ({ l.engine with selectors := l.engine.selectors.rematch l.engine.store }, l.summary)

end Engine
end EntityRules
