import EntityRules.Proofs.Document.Finite
import EntityRules.Proofs.Engine.Scenes

/-!
# Numbers along a run

Without the operations on the store that a host makes itself, all that an entity has comes from
documents: those that entities are made of, and those that rules write back.  A property of
components that all these documents respect holds along the run.  Finiteness is such a property:
no document brings a number into an entity that is not finite, but for numbers under a transform
or a layout that single precision does not hold.

**Results.**
* `everywhere_perform`: what one operation writes, and what it therefore keeps.
* `nullFree_document_run`: where the document of an entity can have a null.
-/

namespace EntityRules

variable {I : (c : Component) → c.Value → Prop}

/-! ## Stores -/

section Stores

variable {s : Store}

theorem Store.everywhere_new (global scene : UInt32) : (new global scene).Everywhere I := by
  intro e c v hv
  rw [get?, isActive, slot_new] at hv
  cases hv

/-- An entity that becomes active has no components. -/
theorem Store.Everywhere.activate {global scene : Nat} (hconsistent : s.Consistent global scene)
    (h : s.Everywhere I) (pool : PoolKind) : (s.activate pool).1.Everywhere I := by
  cases hok : (s.activate pool).2 with
  | error fault =>
      rw [Store.activate_eq_of_error hok]
      exact h
  | ok e =>
      obtain ⟨hslot, hsame⟩ := hconsistent.slot_activate hok
      intro i c v hv
      by_cases hi : i = e
      · subst hi
        simp [Store.get?, hslot] at hv
      · rw [Store.get?, Store.isActive, hsame i hi] at hv
        exact h i c v hv

theorem Store.Everywhere.resetScene (h : s.Everywhere I) : s.resetScene.1.Everywhere I := by
  refine h.of_slots fun i hactive => ?_
  rw [Store.isActive, s.resetScene_eq.2] at hactive
  rw [s.resetScene_eq.2]
  split
  · next hended =>
      rw [if_pos hended] at hactive
      cases hactive
  · rfl

end Stores

namespace Engine

/-! ## Operations -/

section Operations

/-- The documents that an operation writes to entities. -/
def written (g : Engine) : EngineAction → List Json
  | .spawn _ document => [document]
  | .applyScene scene => scene.entities
  | .step deltaTime =>
    g.driver.written deltaTime g.rules g.refresh.1.selectors g.store g.diagnostics
  | _ => []

/-- The documents that are written along a run. -/
def writtenBy (g : Engine) (actions : List EngineAction) : List Json :=
  outputs perform written g actions

theorem everywhere_spawn {g : Engine} (hsound : g.core.Sound) (h : g.store.Everywhere I)
    (pool : PoolKind) {document : Json} (hgood : Document.Respects I document) :
    (g.spawn pool document).1.store.Everywhere I := by
  have hactivate := Store.Everywhere.activate hsound.consistent h pool
  simp only [spawn]
  split
  · exact h
  · next t e heq =>
      have hstore : (g.store.activate pool).1 = t := by rw [heq]
      rw [show g.core.store = g.store from rfl, hstore] at hactivate
      split
      · next o hwrite => exact Document.everywhere_write hgood hwrite hactivate
      · exact hactivate

/-- The entities of a scene, one after another. -/
theorem Loading.everywhere_addEntities {l : Loading} (hsound : l.engine.core.Sound)
    (h : l.engine.store.Everywhere I) {documents : List Json}
    (hgood : ∀ document ∈ documents, Document.Respects I document) :
    (documents.foldl Loading.addEntity l).engine.store.Everywhere I := by
  induction documents generalizing l with
  | nil => exact h
  | cons document documents ih =>
      obtain ⟨hhead, htail⟩ := List.forall_mem_cons.mp hgood
      refine ih (hsound.leads (l.leads_addEntity document)) ?_ htail
      have hspawn := everywhere_spawn hsound h .scene hhead
      simp only [addEntity]
      split
      · next g e heq =>
          rw [heq] at hspawn
          exact hspawn
      · next g heq =>
          rw [heq] at hspawn
          exact hspawn

theorem store_loadRule (g : Engine) (partition : Partition) (d : RuleDefinition) :
    (g.loadRule partition d).1.store = g.store := by
  simp only [loadRule]
  split
  · exact g.store_activate partition _
  · rfl

theorem store_loadRules (g : Engine) (partition : Partition) (definitions : List RuleDefinition) :
    (g.loadRules partition definitions).1.store = g.store := by
  induction definitions generalizing g with
  | nil => rfl
  | cons d definitions ih => exact (ih _).trans (g.store_loadRule partition d)

/-- An operation keeps a property of components that all it writes respects. -/
theorem everywhere_perform {g : Engine} (hg : g.Reached) (h : g.store.Everywhere I)
    {a : EngineAction} (ha : ∀ change, a ≠ .store change)
    (hgood : ∀ document ∈ g.written a, Document.Respects I document) :
    (g.perform a).store.Everywhere I := by
  cases a with
  | store change => exact absurd rfl (ha change)
  | clearRules | pulse | refresh | report | drainDiagnostics => exact h
  | loadRule partition d =>
      rw [perform, store_loadRule]
      exact h
  | loadRules partition definitions =>
      rw [perform, store_loadRules]
      exact h
  | activate partition rule =>
      rw [perform, store_activate]
      exact h
  | spawn pool document =>
      exact everywhere_spawn hg.sound h pool (hgood document (List.mem_singleton_self document))
  | step deltaTime => exact Driver.everywhere_run h hgood
  | applyScene scene =>
      -- the rules of the scene come after its entities and leave the store
      have hstore : (g.perform (.applyScene scene)).store = (g.populated scene).engine.store :=
        (g.addsRules_loaded scene).store
      rw [hstore]
      exact Loading.everywhere_addEntities (l := g.opening scene) hg.sound_endScene
        (Store.Everywhere.resetScene h) hgood

/-- A run keeps a property of components that all documents written along it respect. -/
theorem Reached.everywhere_run {g : Engine} (hg : g.Reached) (h : g.store.Everywhere I)
    {actions : List EngineAction} (hactions : ∀ a ∈ actions, ∀ change, a ≠ .store change)
    (hgood : ∀ document ∈ g.writtenBy actions, Document.Respects I document) :
    (g.run actions).store.Everywhere I := by
  have hstep : ∀ g : Engine, ∀ a ∈ actions, g.Reached ∧ g.store.Everywhere I →
      (∀ document ∈ g.written a, Document.Respects I document) →
      (g.perform a).Reached ∧ (g.perform a).store.Everywhere I := by
    rintro g a ha ⟨hreached, hg⟩ hgood
    exact ⟨hreached.perform a, everywhere_perform hreached hg (hactions a ha) hgood⟩
  exact (foldl_keeps hstep ⟨hg, h⟩ hgood).2

end Operations

/-! ## Runs from a new engine -/

section Runs

theorem Reached.lt_of_isActive {g : Engine} (hg : g.Reached) {e : Nat}
    (hactive : g.store.isActive e = true) : e < 2 ^ 64 := by
  have hlt := Store.lt_capacity_of_isActive hactive
  have hcapacity : g.store.capacity =
      g.config.globalEntities.toNat + g.config.sceneEntities.toNat := hg.sound.consistent.capacity
  have hglobal := g.config.globalEntities.toNat_lt
  have hscene := g.config.sceneEntities.toNat_lt
  omega

/-- **Where a document can have a null.**  After a run in which the host does not write to the store
itself, the document of an active entity has nulls at most within its transform and its flex; and it
has none at all if the numbers that the documents written along the run give there are in the range
of single precision. -/
theorem nullFree_document_run (config : Config) (table : Expr.Operators)
    {actions : List EngineAction} (hactions : ∀ a ∈ actions, ∀ change, a ≠ .store change) {e : Nat}
    {document : Json} (hread : ((new config table).run actions).document? e = some document) :
    (∀ name value, document.get? name = some value → name ≠ "transform" → name ≠ "flex" →
      value.nullFree = true) ∧
    ((∀ given ∈ (new config table).writtenBy actions, Document.inRange given = true) →
      document.nullFree = true) := by
  have hnew : (new config table).Reached := .new config table
  have hg := hnew.run actions
  obtain ⟨hactive, rfl⟩ := Document.read?_eq_some_iff.mp hread
  have hlt := hg.lt_of_isActive hactive
  refine ⟨fun name value hfind htransform hflex => ?_, fun hrange => ?_⟩
  · have helsewhere := hnew.everywhere_run
      (I := fun c v => c ≠ .transform → c ≠ .flex → c.isFinite v = true)
      (Store.everywhere_new _ _) hactions
      fun given _ => Document.respects_finite_elsewhere given
    refine Document.nullFree_of_find?_members hactive hlt hfind ?_
    rintro c rfl v hv
    refine helsewhere e c v hv ?_ ?_
    · rintro rfl
      exact htransform rfl
    · rintro rfl
      exact hflex rfl
  · have hfinite := hnew.everywhere_run (I := fun c v => c.isFinite v = true)
      (Store.everywhere_new _ _) hactions
      fun given hgiven => Document.respects_finite (hrange given hgiven)
    exact (Document.nullFree_members hactive hlt).mpr (hfinite e)

/-- A door of some width, and a rule that gives it a height. -/
def growingDoor : List EngineAction :=
  let door : Json := .obj [("flex", .obj [("width", .number 2.5)]), ("tags", .ofStrings ["door"])]
  let grow : Operation := ⟨.ok ⟨["flex"], "height", by decide⟩, .number 3⟩
  [.spawn .scene door,
    .activate .scene ⟨"grow", .atom (.tag "door"), RuleDefinition.keepAll, .mutate [grow]⟩,
    .step 1]

theorem nullFree_document_run_growingDoor :
    ((new smallConfig .standard).writtenBy growingDoor).length = 2 ∧
    ∃ document, ((new smallConfig .standard).run growingDoor).document? 1 = some document ∧
      (document.at? ["flex", "height"]).isSome = true ∧ document.nullFree = true := by
  have hactions : ∀ a ∈ growingDoor, ∀ change, a ≠ .store change := by
    simp [growingDoor]
  have hrange :
      ((new smallConfig .standard).writtenBy growingDoor).all Document.inRange = true := by
    decide +kernel
  have hheight : (((new smallConfig .standard).run growingDoor).document? 1).any
      (fun document => (document.at? ["flex", "height"]).isSome) = true := by
    decide +kernel
  cases hread : ((new smallConfig .standard).run growingDoor).document? 1 with
  | none =>
      rw [hread] at hheight
      cases hheight
  | some document =>
      rw [hread] at hheight
      obtain ⟨-, hnull⟩ := nullFree_document_run smallConfig .standard hactions hread
      exact ⟨by decide +kernel, document, rfl, hheight, hnull (List.all_eq_true.mp hrange)⟩

/-- A document with a width that is no number of single precision. -/
def wideDocument : Json :=
  .obj [("flex", .obj [("width", .num (.real 1e39 (by decide +kernel)))])]

/-- The width is taken without a failure and is shown as null. -/
theorem wideDocument_shows_null :
    let g := (new smallConfig .standard).run [.spawn .global wideDocument]
    g.diagnostics.history = [] ∧
    (g.document? 0).any (fun document => (document.at? ["flex", "width"]).any Json.isNull) = true ∧
    (g.document? 0).any (fun document => !document.nullFree) = true := by
  decide +kernel

end Runs

end Engine
end EntityRules
