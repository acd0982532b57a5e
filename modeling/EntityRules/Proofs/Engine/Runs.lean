import EntityRules.Engine
import EntityRules.Proofs.Engine.Core
import EntityRules.Proofs.Rule.Writes

/-!
# Runs of an engine

A run applies the operations of an engine one after another, in any order and with any
arguments: those on entities and rules, events, refreshes, steps, scenes, the operations on the
store that a host makes itself, and the diagnostics.  Reading a document or the entity that a
parent selector selects changes nothing and is no operation.

Every operation is described by the single changes of the core that it makes.  Entities and
rules that are added build; a step refreshes the selectors and then changes the store; a scene
clears, drops the stale events, builds and matches.

**Results.**
* `Driver.leads_run`: the pass over the rules changes the store only.
* `leads_perform`: the changes that each operation makes.
* `run_preserves`: from one operation to a run.
* `Reached.sound`: what every run preserves.
-/

namespace EntityRules

/-! ## The pass -/

/-- A store that operations lead to. -/
def Store.Leads (s t : Store) : Prop :=
  ∃ actions : List StoreAction, t = actions.foldl Store.perform s

section Stores

variable {s t u : Store}

theorem Store.Leads.refl (s : Store) : Store.Leads s s := ⟨[], rfl⟩

theorem Store.Leads.single (s : Store) (a : StoreAction) : Store.Leads s (s.perform a) :=
  ⟨[a], rfl⟩

theorem Store.Leads.trans (hst : Store.Leads s t) (htu : Store.Leads t u) : Store.Leads s u := by
  obtain ⟨first, rfl⟩ := hst
  obtain ⟨rest, rfl⟩ := htu
  exact ⟨first ++ rest, by rw [List.foldl_append]⟩

/-- Ending an entity and writing a document are operations on the store. -/
theorem Store.passRelation_leads : PassRelation Store.Leads where
  refl := Store.Leads.refl
  trans := Store.Leads.trans
  deactivate s e := Store.Leads.single s (.deactivate e)
  write hwrite := by
    obtain ⟨actions, _, hactions⟩ := Document.edits_of_write hwrite
    exact ⟨actions, hactions⟩

end Stores

/-- The pass over the rules changes the store by operations on it. -/
theorem Driver.leads_run (d : Driver) (deltaTime : Float) (b : RuleBook) (r : Registry)
    (s : Store) (diagnostics : Diagnostics) :
    Store.Leads s (d.run deltaTime b r s diagnostics).store :=
  Store.passRelation_leads.runRules ⟨d.begin s.capacity deltaTime, s, diagnostics, {}⟩ r b.toList

/-! ## Operations -/

/-- An operation of an engine. -/
inductive EngineAction where
  | loadRule (partition : Partition) (d : RuleDefinition)
  | loadRules (partition : Partition) (definitions : List RuleDefinition)
  | activate (partition : Partition) (rule : Rule)
  | clearRules
  | spawn (pool : PoolKind) (document : Json)
  | store (a : StoreAction)
  | pulse (kind : EventKind) (e : Nat)
  | refresh
  | step (deltaTime : Float)
  | applyScene (scene : Scene)
  | report (e : Failure)
  | drainDiagnostics

namespace Engine

/-- One operation. -/
def perform (g : Engine) : EngineAction → Engine
  | .loadRule partition d => (g.loadRule partition d).1
  | .loadRules partition definitions => (g.loadRules partition definitions).1
  | .activate partition rule => (g.activate partition rule).1
  | .clearRules => g.clearRules
  | .spawn pool document => (g.spawn pool document).1
  | .store a => { g with store := g.store.perform a }
  | .pulse kind e => g.pulse kind e
  | .refresh => g.refresh.1
  | .step deltaTime => (g.step deltaTime).1
  | .applyScene scene => (g.applyScene scene).1
  | .report e => g.report e
  | .drainDiagnostics => { g with diagnostics := g.diagnostics.drain.1 }

/-- Operations one after another. -/
def run (g : Engine) (actions : List EngineAction) : Engine := actions.foldl perform g

/-- The engines that runs of operations reach. -/
inductive Reached : Engine → Prop
  | new (config : Config) (table : Expr.Operators) : Reached (new config table)
  | perform {g : Engine} (a : EngineAction) : Reached g → Reached (g.perform a)

/-- What each operation of a run preserves the run preserves. -/
theorem run_preserves {I : Engine → Prop} {g : Engine} {actions : List EngineAction}
    (hI : ∀ g, ∀ a ∈ actions, I g → I (g.perform a)) (hg : I g) : I (g.run actions) := by
  induction actions generalizing g with
  | nil => exact hg
  | cons a actions ih =>
      have hrest : ∀ g, ∀ b ∈ actions, I g → I (g.perform b) := fun g b hb =>
        hI g b (List.mem_cons_of_mem a hb)
      exact ih hrest (hI g a List.mem_cons_self hg)

theorem Reached.run {g : Engine} (hg : g.Reached) (actions : List EngineAction) :
    (g.run actions).Reached :=
  run_preserves (fun _ a _ h => h.perform a) hg

/-- What the invariants speak about. -/
def core (g : Engine) : Core := ⟨g.config, g.store, g.rules, g.selectors⟩

section Building

/-- An activation by an engine is one by its book, whose failure is reported. -/
theorem activate_eq (g : Engine) (partition : Partition) (rule : Rule) :
    g.activate partition rule =
      ({ g with
          rules := (g.rules.activate partition rule g.selectors).1
          selectors := (g.rules.activate partition rule g.selectors).2.1
          diagnostics :=
            match (g.rules.activate partition rule g.selectors).2.2 with
            | .ok _ => g.diagnostics
            | .error e => g.diagnostics.report e },
        (g.rules.activate partition rule g.selectors).2.2.toOption) := by
  simp only [Engine.activate, RuleBook.tryActivate]
  rcases g.rules.activate partition rule g.selectors with ⟨book, registry, e | handle⟩ <;> rfl

theorem core_activate (g : Engine) (partition : Partition) (rule : Rule) :
    (g.activate partition rule).1.core = g.core.perform (.rules (.activate partition rule)) := by
  rw [activate_eq]
  rfl

theorem store_activate (g : Engine) (partition : Partition) (rule : Rule) :
    (g.activate partition rule).1.store = g.store :=
  congrArg Core.store (g.core_activate partition rule)

theorem leads_activate (g : Engine) (partition : Partition) (rule : Rule) :
    Core.Leads CoreAction.Builds g.core (g.activate partition rule).1.core := by
  rw [core_activate]
  exact Core.Leads.single g.core trivial

theorem leads_loadRule (g : Engine) (partition : Partition) (d : RuleDefinition) :
    Core.Leads CoreAction.Builds g.core (g.loadRule partition d).1.core := by
  simp only [Engine.loadRule]
  split
  · exact g.leads_activate partition _
  · exact Core.Leads.refl g.core

theorem leads_loadRules (g : Engine) (partition : Partition) (l : List RuleDefinition) :
    Core.Leads CoreAction.Builds g.core (g.loadRules partition l).1.core := by
  induction l generalizing g with
  | nil => exact Core.Leads.refl g.core
  | cons d l ih => exact (g.leads_loadRule partition d).trans (ih _)

/-- An entity that is added: the lowest free slot becomes active, and the document edits it. -/
theorem leads_spawn (g : Engine) (pool : PoolKind) (document : Json) :
    Core.Leads CoreAction.Builds g.core (g.spawn pool document).1.core := by
  have hactivate : Core.Leads CoreAction.Builds g.core
      (g.core.perform (.store (.activate pool))) :=
    Core.Leads.single g.core (a := .store (.activate pool)) trivial
  simp only [Engine.spawn]
  split
  · exact Core.Leads.refl g.core
  · next t e hok =>
      have hstore : g.store.perform (.activate pool) = t := by
        rw [Store.perform, hok]
      split
      · next o hwrite =>
          obtain ⟨actions, hedits, hactions⟩ := Document.edits_of_write hwrite
          have hbuilds : ∀ a ∈ actions, CoreAction.Builds (.store a) := by
            intro a ha
            have hedit := hedits a ha
            cases a with
            | activate other => trivial
            | deactivate | resetScene | insert | modify | remove | getOrInsert => exact ⟨e, hedit⟩
          have hwritten := Core.leads_store (g.core.perform (.store (.activate pool))) hbuilds
          refine hactivate.trans ?_
          simp only [Core.perform, core, hstore, ← hactions] at hwritten ⊢
          exact hwritten
      · refine hactivate.trans ?_
        simp only [Core.perform, core, report, hstore]
        exact Core.Leads.refl _

end Building

section Scenes

theorem Loading.leads_addEntity (l : Loading) (document : Json) :
    Core.Leads CoreAction.Builds l.engine.core (l.addEntity document).engine.core := by
  have hspawn := l.engine.leads_spawn .scene document
  simp only [Loading.addEntity]
  split
  · next g e heq =>
      rw [heq] at hspawn
      exact hspawn
  · next g heq =>
      rw [heq] at hspawn
      exact hspawn

theorem Loading.leads_activate (l : Loading) (partition : Partition) (rule : Rule)
    {g : Engine} {handle : Option RuleHandle}
    (heq : l.engine.activate partition rule = (g, handle)) :
    Core.Leads CoreAction.Builds l.engine.core g.core := by
  have hactivate := l.engine.leads_activate partition rule
  rw [heq] at hactivate
  exact hactivate

theorem Loading.leads_addGlobalRule (l : Loading) (rule : Rule) :
    Core.Leads CoreAction.Builds l.engine.core (l.addGlobalRule rule).engine.core := by
  simp only [Loading.addGlobalRule]
  split
  · exact Core.Leads.refl l.engine.core
  · split
    · next heq => exact l.leads_activate .global rule heq
    · next heq => exact l.leads_activate .global rule heq

theorem Loading.leads_addRule (l : Loading) (rule : Rule) :
    Core.Leads CoreAction.Builds l.engine.core (l.addRule rule).engine.core := by
  simp only [Loading.addRule]
  split
  · next heq => exact l.leads_activate .scene rule heq
  · next heq => exact l.leads_activate .scene rule heq

theorem Loading.leads_foldl {α : Type} {f : Loading → α → Loading}
    (hf : ∀ l a, Core.Leads CoreAction.Builds l.engine.core (f l a).engine.core) (l : Loading)
    (items : List α) :
    Core.Leads CoreAction.Builds l.engine.core (items.foldl f l).engine.core := by
  induction items generalizing l with
  | nil => exact Core.Leads.refl l.engine.core
  | cons a items ih => exact (hf l a).trans (ih (f l a))

/-- The end of a scene: its rules and its entities go, then the events of what is not active. -/
theorem core_endScene (g : Engine) :
    g.endScene.core =
      ((g.core.perform (.rules .reset)).perform (.store .resetScene)).perform
        (.events .dropStaleEvents trivial) :=
  rfl

/-- The loading with which a scene begins. -/
def opening (g : Engine) (scene : Scene) : Loading :=
  ⟨{ g.endScene with diagnostics := g.endScene.diagnostics.reportAll scene.errors },
    { dropped := scene.errors.length }⟩

/-- The loading after the entities of a scene. -/
def populated (g : Engine) (scene : Scene) : Loading :=
  scene.entities.foldl Loading.addEntity (g.opening scene)

/-- The loading after the entities and the rules of a scene. -/
def loaded (g : Engine) (scene : Scene) : Loading :=
  scene.rules.foldl Loading.addRule
    (scene.globalRules.foldl Loading.addGlobalRule (g.populated scene))

theorem applyScene_eq (g : Engine) (scene : Scene) :
    g.applyScene scene =
      ({ (g.loaded scene).engine with
          selectors := (g.loaded scene).engine.selectors.rematch (g.loaded scene).engine.store },
        (g.loaded scene).summary) :=
  rfl

/-- A scene builds on what the end of the former one leaves. -/
theorem leads_loaded (g : Engine) (scene : Scene) :
    Core.Leads CoreAction.Builds g.endScene.core (g.loaded scene).engine.core := by
  have hentities := Loading.leads_foldl Loading.leads_addEntity (g.opening scene) scene.entities
  have hglobal := Loading.leads_foldl Loading.leads_addGlobalRule (g.populated scene)
    scene.globalRules
  have hrules := Loading.leads_foldl Loading.leads_addRule
    (scene.globalRules.foldl Loading.addGlobalRule (g.populated scene)) scene.rules
  exact (hentities.trans hglobal).trans hrules

/-- When everything of a scene is there, the selectors are matched. -/
theorem core_applyScene (g : Engine) (scene : Scene) :
    (g.applyScene scene).1.core =
      (g.loaded scene).engine.core.perform (.events .rematch trivial) := by
  rw [applyScene_eq]
  rfl

end Scenes

section Runs

/-- The changes that an operation makes. -/
def Makes : EngineAction → CoreAction → Prop
  | .loadRule _ _ | .loadRules _ _ | .activate _ _ | .spawn _ _ => CoreAction.Builds
  | .clearRules | .store _ => CoreAction.Plain
  | .pulse kind e => fun change => change = .events (.pulse kind e) trivial
  | .refresh => fun change => change = .events .refresh trivial
  | .step _ => fun change => change = .events .refresh trivial ∨ change.Plain
  | .applyScene _ => fun change =>
      change = .events .dropStaleEvents trivial ∨ change = .events .rematch trivial ∨
        change.Plain
  | .report _ | .drainDiagnostics => fun _ => False

/-- A step refreshes the selectors and then changes the store. -/
theorem leads_step (g : Engine) (deltaTime : Float) :
    Core.Leads CoreAction.Plain g.refresh.1.core (g.step deltaTime).1.core := by
  obtain ⟨actions, hactions⟩ := g.driver.leads_run deltaTime g.rules g.refresh.1.selectors
    g.store g.diagnostics
  have hcore : (g.step deltaTime).1.core =
      { g.refresh.1.core with store := actions.foldl Store.perform g.store } := by
    rw [← hactions]
    rfl
  rw [hcore]
  exact Core.leads_store g.refresh.1.core (fun _ _ => trivial)

/-- What each operation does to the core. -/
theorem leads_perform (g : Engine) (a : EngineAction) :
    Core.Leads (Makes a) g.core (g.perform a).core := by
  cases a with
  | loadRule partition d => exact g.leads_loadRule partition d
  | loadRules partition definitions => exact g.leads_loadRules partition definitions
  | activate partition rule => exact g.leads_activate partition rule
  | clearRules => exact Core.Leads.single g.core (a := .rules .clearAll) trivial
  | spawn pool document => exact g.leads_spawn pool document
  | store a => exact Core.Leads.single g.core (a := .store a) trivial
  | pulse kind e => exact Core.Leads.single g.core (a := .events (.pulse kind e) trivial) rfl
  | refresh => exact Core.Leads.single g.core (a := .events .refresh trivial) rfl
  | step deltaTime =>
      have hrefresh : Core.Leads (Makes (.step deltaTime)) g.core g.refresh.1.core :=
        Core.Leads.single g.core (a := .events .refresh trivial) (Or.inl rfl)
      exact hrefresh.trans ((g.leads_step deltaTime).mono fun _ => Or.inr)
  | applyScene scene =>
      have hend : Core.Leads (Makes (.applyScene scene)) g.core g.endScene.core := by
        rw [core_endScene]
        refine .step (a := .rules .reset) (Or.inr (Or.inr trivial)) ?_
        refine .step (a := .store .resetScene) (Or.inr (Or.inr trivial)) ?_
        exact Core.Leads.single _ (Or.inl rfl)
      have hbuilt := (g.leads_loaded scene).mono (Q := Makes (.applyScene scene))
        fun _ h => Or.inr (Or.inr h.plain)
      rw [perform, core_applyScene]
      exact (hend.trans hbuilt).trans (Core.Leads.single _ (Or.inr (Or.inl rfl)))
  | report e => exact Core.Leads.refl g.core
  | drainDiagnostics => exact Core.Leads.refl g.core

theorem Reached.sound {g : Engine} (hg : g.Reached) : g.core.Sound := by
  induction hg with
  | new config table => exact Core.sound_new config
  | perform a _ ih => exact ih.leads (leads_perform _ a)

/-- The end of a scene leaves no slot of the scene active. -/
theorem Reached.isActive_endScene {g : Engine} (hg : g.Reached) {e : Nat}
    (he : g.config.globalEntities.toNat ≤ e) : g.endScene.store.isActive e = false := by
  have hstore : g.endScene.store = g.store.resetScene.1 := rfl
  rw [hstore, Store.isActive_resetScene]
  cases hactive : g.store.isActive e with
  | false => rfl
  | true =>
      have howns : g.store.scene.owns e = true :=
        hg.sound.consistent.scene_owns_iff.mpr ⟨he, Store.lt_capacity_of_isActive hactive⟩
      rw [howns]
      rfl

theorem config_perform (g : Engine) (a : EngineAction) : (g.perform a).config = g.config :=
  (g.leads_perform a).config_eq

theorem config_run (g : Engine) (actions : List EngineAction) :
    (g.run actions).config = g.config :=
  run_preserves (I := fun h => h.config = g.config)
    (fun h a _ hconfig => (h.config_perform a).trans hconfig) rfl

/-- Capacities of one global entity, two entities of the scene, one global rule and two rules of
the scene. -/
def smallConfig : Config := ⟨1, 2, 1, 2, 2, 4⟩

end Runs

end Engine
end EntityRules
