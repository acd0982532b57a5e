import EntityRules.Proofs.Engine.Delivery
import EntityRules.Proofs.Engine.Scenes

/-!
# What a scene leaves alone

A scene ends the former one and then builds: it takes slots of its own pool, and it activates
rules, each behind those of its partition.  Nothing that it does takes a global rule away, writes
to a global slot or forgets the event of a global entity.

**Results.**
* `RuleBook.Keeps`: the global rules stay where they are; preserved by whatever a scene does.
* `Loading.scene_foldl_addRule`: the rules of a scene that are activated, in order.
* `Reached.slot_applyScene`: the slots of the global pool stay as they are.
* `applyScene_isolates`: all of it for one scene.
-/

namespace EntityRules

namespace RuleBook

variable {b b' : RuleBook} {partition : Partition} {rule : Rule} {r : Registry}

/-- The global rules stay in place and under their handles; others may come after them. -/
structure Keeps (b b' : RuleBook) : Prop where
  rules : b.global.rules <+: b'.global.rules
  generation : b'.global.generation = b.global.generation

theorem Keeps.refl (b : RuleBook) : Keeps b b := ⟨List.prefix_rfl, rfl⟩

theorem Keeps.trans {b'' : RuleBook} (h : Keeps b b') (h' : Keeps b' b'') : Keeps b b'' :=
  ⟨h.rules.trans h'.rules, h'.generation.trans h.generation⟩

/-- An activation leaves the rules of both partitions before the one that it adds. -/
theorem bucket_activate (b : RuleBook) (partition : Partition) (rule : Rule) (r : Registry)
    (other : Partition) :
    (b.bucket other).rules <+: ((b.activate partition rule r).1.bucket other).rules ∧
      ((b.activate partition rule r).1.bucket other).generation =
        (b.bucket other).generation := by
  rcases b.activate_cases partition rule r with
    ⟨_, e, heq⟩ | ⟨_, ⟨e, _, heq⟩ | ⟨slot, handle, _, heq⟩⟩
  · rw [heq]
    exact ⟨List.prefix_rfl, rfl⟩
  · rw [heq]
    exact ⟨List.prefix_rfl, rfl⟩
  · rw [heq, bucket_setBucket]
    split
    · next hsame =>
      rw [hsame]
      exact ⟨List.prefix_append _ _, rfl⟩
    · exact ⟨List.prefix_rfl, rfl⟩

theorem keeps_activate (b : RuleBook) (partition : Partition) (rule : Rule) (r : Registry) :
    Keeps b (b.activate partition rule r).1 :=
  ⟨(b.bucket_activate partition rule r .global).1, (b.bucket_activate partition rule r .global).2⟩

theorem Keeps.getElem?_global (h : Keeps b b') {i : Nat} {active : ActiveRule}
    (hi : b.global.rules[i]? = some active) : b'.global.rules[i]? = some active := by
  obtain ⟨others, hothers⟩ := h.rules
  obtain ⟨hlt, _⟩ := List.getElem?_eq_some_iff.mp hi
  rw [← hothers, List.getElem?_append_left hlt, hi]

/-- A global rule is found where it was among all rules. -/
theorem Keeps.getElem?_toList (h : Keeps b b') {i : Nat} {active : ActiveRule}
    (hi : b.global.rules[i]? = some active) : b'.toList[i]? = some active := by
  have hglobal := h.getElem?_global hi
  obtain ⟨hlt, _⟩ := List.getElem?_eq_some_iff.mp hglobal
  rw [toList, List.getElem?_append_left hlt, hglobal]

/-- The handle of a global rule still leads to it. -/
theorem Keeps.get? (h : Keeps b b') {handle : RuleHandle} (hglobal : handle.partition = .global)
    {active : ActiveRule} (hget : b.get? handle = some active) : b'.get? handle = some active := by
  rw [get?_eq_some_iff, hglobal] at hget ⊢
  exact ⟨h.generation.trans hget.1, h.getElem?_global hget.2⟩

end RuleBook

/-- A slot is in use by a pool when it is active and the pool is its home. -/
theorem Store.poolOf?_eq_some_iff {s : Store} {e : Nat} {kind : PoolKind} :
    s.poolOf? e = some kind ↔ s.isActive e = true ∧ s.home e = kind := by
  simp [Store.poolOf?]

namespace Engine

variable {g : Engine} {e : Nat}

section Rules

/-- Building takes no global rule away. -/
theorem keeps_of_leads {c d : Core} (h : Core.Leads CoreAction.Builds c d) :
    c.book.Keeps d.book := by
  refine h.preserves (I := fun d => c.book.Keeps d.book) ?_ (RuleBook.Keeps.refl c.book)
  intro c' a ha hc'
  cases a with
  | store a => exact hc'
  | events a _ => exact ha.elim
  | rules a =>
      cases a with
      | activate partition rule => exact hc'.trans (RuleBook.keeps_activate _ partition rule _)
      | tryActivate | reset | clearAll => exact ha.elim

/-- Building leaves the rules of both partitions before those that it adds. -/
theorem prefix_of_leads {c d : Core} (h : Core.Leads CoreAction.Builds c d)
    (partition : Partition) :
    (c.book.bucket partition).rules <+: (d.book.bucket partition).rules := by
  refine h.preserves
    (I := fun d => (c.book.bucket partition).rules <+: (d.book.bucket partition).rules) ?_
    List.prefix_rfl
  intro c' a ha hc'
  cases a with
  | store a => exact hc'
  | events a _ => exact ha.elim
  | rules a =>
      cases a with
      | activate other rule =>
          exact hc'.trans (RuleBook.bucket_activate _ other rule _ partition).1
      | tryActivate | reset | clearAll => exact ha.elim

theorem keeps_applyScene (g : Engine) (scene : Scene) :
    g.rules.Keeps (g.applyScene scene).1.rules :=
  have hend : g.rules.Keeps g.endScene.rules := ⟨List.prefix_rfl, rfl⟩
  hend.trans (keeps_of_leads (g.leads_loaded scene))

/-- A rule that is activated comes after those of its partition. -/
theorem rules_activate (g : Engine) (partition : Partition) (rule : Rule) :
    ((g.activate partition rule).1.rules = g.rules ∧ (g.activate partition rule).2 = none) ∨
      ∃ slot,
        (g.activate partition rule).1.rules =
          g.rules.setBucket partition ((g.rules.bucket partition).push ⟨rule, slot⟩) ∧
        (g.activate partition rule).2.isSome = true := by
  rw [activate_eq]
  rcases g.rules.activate_cases partition rule g.selectors with
    ⟨_, e, heq⟩ | ⟨_, ⟨e, _, heq⟩ | ⟨slot, handle, _, heq⟩⟩
  · exact Or.inl (by rw [heq]; exact ⟨rfl, rfl⟩)
  · exact Or.inl (by rw [heq]; exact ⟨rfl, rfl⟩)
  · exact Or.inr ⟨slot, by rw [heq]; exact ⟨rfl, rfl⟩⟩

/-- A rule has no bearing on those of the other partition. -/
theorem bucket_activate_of_ne (g : Engine) {partition other : Partition} (h : other ≠ partition)
    (rule : Rule) :
    (g.activate partition rule).1.rules.bucket other = g.rules.bucket other := by
  rcases g.rules_activate partition rule with ⟨hsame, _⟩ | ⟨slot, hpush, _⟩
  · rw [hsame]
  · rw [hpush]
    cases partition <;> cases other <;> first | exact absurd rfl h | rfl

namespace Loading

theorem engine_addRule (l : Loading) (rule : Rule) :
    (l.addRule rule).engine = (l.engine.activate .scene rule).1 := by
  simp only [Loading.addRule]
  split
  · next heq => rw [heq]
  · next heq => rw [heq, drop]

theorem engine_addGlobalRule (l : Loading) (rule : Rule) :
    (l.addGlobalRule rule).engine =
      if (l.engine.rules.find? .global rule).isSome then l.engine
      else (l.engine.activate .global rule).1 := by
  rw [Loading.addGlobalRule]
  split
  · rfl
  · split
    · next heq => rw [heq]
    · next heq => rw [heq, drop]

theorem scene_addGlobalRule (l : Loading) (rule : Rule) :
    (l.addGlobalRule rule).engine.rules.scene = l.engine.rules.scene := by
  rw [engine_addGlobalRule]
  split
  · rfl
  · have hne : Partition.scene ≠ .global := by decide
    exact l.engine.bucket_activate_of_ne hne rule

theorem scene_foldl_addGlobalRule (l : Loading) (rules : List Rule) :
    (rules.foldl addGlobalRule l).engine.rules.scene = l.engine.rules.scene := by
  induction rules generalizing l with
  | nil => rfl
  | cons rule rules ih => exact (ih _).trans (l.scene_addGlobalRule rule)

/-- The rules of a scene have no bearing on the global ones. -/
theorem global_foldl_addRule (l : Loading) (rules : List Rule) :
    (rules.foldl addRule l).engine.rules.global = l.engine.rules.global := by
  induction rules generalizing l with
  | nil => rfl
  | cons rule rules ih =>
      refine (ih _).trans ?_
      rw [engine_addRule]
      have hne : Partition.global ≠ .scene := by decide
      exact l.engine.bucket_activate_of_ne hne rule

/-- Of the rules of a scene some are activated, in their order, after those that were there. -/
theorem scene_foldl_addRule (l : Loading) (rules : List Rule) :
    ∃ kept : List Rule, kept.Sublist rules ∧
      (rules.foldl addRule l).engine.rules.scene.rules.map (·.rule) =
        l.engine.rules.scene.rules.map (·.rule) ++ kept := by
  induction rules generalizing l with
  | nil => exact ⟨[], List.Sublist.refl [], by simp⟩
  | cons rule rules ih =>
      obtain ⟨kept, hkept, hrest⟩ := ih (l.addRule rule)
      rw [engine_addRule] at hrest
      rcases l.engine.rules_activate .scene rule with ⟨hsame, _⟩ | ⟨slot, hpush, _⟩
      · refine ⟨kept, hkept.cons rule, ?_⟩
        rw [List.foldl_cons, hrest, hsame]
      · refine ⟨rule :: kept, hkept.cons_cons rule, ?_⟩
        rw [List.foldl_cons, hrest, hpush]
        simp [RuleBook.setBucket, RuleBook.bucket, Bucket.push]

end Loading

/-- The loading after the entities and the global rules of a scene. -/
def globalLoaded (g : Engine) (scene : Scene) : Loading :=
  scene.globalRules.foldl Loading.addGlobalRule (g.populated scene)

theorem leads_globalLoaded (g : Engine) (scene : Scene) :
    Core.Leads CoreAction.Builds g.endScene.core (g.globalLoaded scene).engine.core :=
  (Loading.leads_foldl Loading.leads_addEntity (g.opening scene) scene.entities).trans
    (Loading.leads_foldl Loading.leads_addGlobalRule (g.populated scene) scene.globalRules)

/-- The rules of the scene come last, to a partition without rules. -/
theorem Reached.scene_globalLoaded (hg : g.Reached) (scene : Scene) :
    (g.globalLoaded scene).engine.rules.scene.rules = [] := by
  have hpopulated : (g.populated scene).engine.rules = g.endScene.rules :=
    congrArg Core.book (hg.populates scene).core
  rw [globalLoaded, Loading.scene_foldl_addGlobalRule, hpopulated]
  rfl

theorem Reached.scene_applyScene (hg : g.Reached) (scene : Scene) :
    ((g.applyScene scene).1.rules.scene.rules.map (·.rule)).Sublist scene.rules := by
  obtain ⟨kept, hkept, hrules⟩ :=
    Loading.scene_foldl_addRule (g.globalLoaded scene) scene.rules
  rw [hg.scene_globalLoaded scene, List.map_nil, List.nil_append] at hrules
  exact hrules ▸ hkept

theorem global_applyScene (g : Engine) (scene : Scene) :
    (g.applyScene scene).1.rules.global = (g.globalLoaded scene).engine.rules.global :=
  Loading.global_foldl_addRule (g.globalLoaded scene) scene.rules

end Rules

section Entities

theorem Reached.consistent (hg : g.Reached) :
    g.store.Consistent g.config.globalEntities.toNat g.config.sceneEntities.toNat :=
  hg.sound.consistent

/-- The slots of the global pool stay as they are. -/
theorem Reached.slot_applyScene (hg : g.Reached) (scene : Scene)
    (he : e < g.config.globalEntities.toNat) :
    (g.applyScene scene).1.store.slot e = g.store.slot e := by
  have hstore : (g.applyScene scene).1.store = (g.populated scene).engine.store :=
    (g.addsRules_loaded scene).store
  have hbefore := (hg.populates scene).before e he
  have hopening : (g.opening scene).engine.store = g.store.resetScene.1 := rfl
  rw [hstore, hbefore, hopening, g.store.resetScene_eq.2, if_neg]
  rintro ⟨howns, _⟩
  have hlow := (hg.consistent.scene_owns_iff.mp howns).1
  exact Nat.not_le_of_lt he hlow

/-- An active slot belongs to the global pool when it is one of the first. -/
theorem Reached.poolOf?_eq_global_iff (hg : g.Reached) :
    g.store.poolOf? e = some .global ↔
      g.store.isActive e = true ∧ e < g.config.globalEntities.toNat := by
  rw [Store.poolOf?_eq_some_iff]
  refine and_congr_right fun hactive => ?_
  rw [← hg.consistent.global_owns_iff]
  exact ⟨fun hhome => hg.consistent.owns_iff.mpr
      ⟨Store.lt_capacity_of_isActive hactive, hhome⟩,
    fun (howns : (g.store.pool .global).owns e = true) => (hg.consistent.owns_iff.mp howns).2⟩

/-- An active slot belongs to the pool of the scene when it is not one of the first. -/
theorem Reached.poolOf?_eq_scene_iff (hg : g.Reached) :
    g.store.poolOf? e = some .scene ↔
      g.store.isActive e = true ∧ g.config.globalEntities.toNat ≤ e := by
  rw [Store.poolOf?_eq_some_iff]
  refine and_congr_right fun hactive => ?_
  have hlt := Store.lt_capacity_of_isActive hactive
  rw [← and_iff_left (a := g.config.globalEntities.toNat ≤ e) hlt,
    ← hg.consistent.scene_owns_iff]
  exact ⟨fun hhome => hg.consistent.owns_iff.mpr ⟨hlt, hhome⟩,
    fun (howns : (g.store.pool .scene).owns e = true) => (hg.consistent.owns_iff.mp howns).2⟩

end Entities

section Isolation

/-- **A scene leaves the global world alone.**  After any run, and whatever is in a scene, every
active entity of the global pool stays active with all its components.  Every active global
rule stays where it was among all rules, with its selector, and its handle still leads to it.
Every event that waits for an entity of the global pool waits on.  And afterwards nothing of a
former scene is left: the rules of the scene partition are rules of this scene, in its order,
and every active entity of the scene pool is what one of its documents makes of a new
entity. -/
theorem applyScene_isolates (g : Engine) (hg : g.Reached) (scene : Scene) :
    let g' := (g.applyScene scene).1
    (∀ e, g.store.poolOf? e = some .global →
      g'.store.poolOf? e = some .global ∧ ∀ c, g'.store.get? c e = g.store.get? c e) ∧
    (∀ (i : Nat) (active : ActiveRule), g.rules.global.rules[i]? = some active →
      g.rules.toList[i]? = some active ∧ g'.rules.toList[i]? = some active ∧
      g'.rules.global.rules[i]? = some active ∧
      g'.selectors.selector? active.selector = some active.rule.source) ∧
    (∀ handle active, handle.partition = .global → g.rules.get? handle = some active →
      g'.rules.get? handle = some active) ∧
    (∀ kind e, g.store.poolOf? e = some .global → g.selectors.Waiting kind e →
      g'.selectors.Waiting kind e) ∧
    (g'.rules.scene.rules.map (·.rule)).Sublist scene.rules ∧
    ∀ e, g'.store.poolOf? e = some .scene →
      ∃ i document, e = g.config.globalEntities.toNat + i ∧
        scene.entities[i]? = some document ∧ Document.Lands document e g'.store := by
  intro g'
  have hg' : g'.Reached := hg.perform (.applyScene scene)
  have hconfig : g'.config = g.config := g.config_perform (.applyScene scene)
  have hkeeps : g.rules.Keeps g'.rules := g.keeps_applyScene scene
  refine ⟨fun e he => ?_, fun i active hi => ?_, fun handle active hglobal => hkeeps.get? hglobal,
    fun kind e he hwaits => ?_, hg.scene_applyScene scene, fun e he => ?_⟩
  · obtain ⟨hactive, hlt⟩ := hg.poolOf?_eq_global_iff.mp he
    have hslot : g'.store.slot e = g.store.slot e := hg.slot_applyScene scene hlt
    refine ⟨hg'.poolOf?_eq_global_iff.mpr ⟨?_, hconfig ▸ hlt⟩, fun c => ?_⟩
    · rw [Store.isActive, hslot]
      exact hactive
    · rw [Store.get?, Store.get?, Store.isActive, Store.isActive, hslot]
  · have hthere := hkeeps.getElem?_toList hi
    refine ⟨(RuleBook.Keeps.refl g.rules).getElem?_toList hi, hthere, hkeeps.getElem?_global hi, ?_⟩
    exact hg'.sound.balanced.accounts.held active.hold
      (List.mem_map_of_mem (List.mem_of_getElem? hthere))
  · obtain ⟨hactive, hlt⟩ := hg.poolOf?_eq_global_iff.mp he
    refine waiting_perform (a := .applyScene scene) hwaits (fun hstep => hstep) fun _ _ => ?_
    have hstore : g.endScene.store = g.store.resetScene.1 := rfl
    have hscene : g.store.scene.owns e = false := by
      refine Bool.eq_false_iff.mpr fun howns => ?_
      exact Nat.not_le_of_lt hlt (hg.consistent.scene_owns_iff.mp howns).1
    rw [hstore, Store.isActive_resetScene, hactive, hscene]
    rfl
  · obtain ⟨hactive, hlow⟩ := hg'.poolOf?_eq_scene_iff.mp he
    rw [hconfig] at hlow
    obtain ⟨hlands, hslots⟩ := hg.landed scene
    have hlt := (hslots e hlow).mp hactive
    obtain ⟨i, rfl⟩ := Nat.exists_eq_add_of_le hlow
    have hi : i < scene.entities.length := by omega
    have hdocument : scene.entities[i]? = some scene.entities[i] := List.getElem?_eq_getElem hi
    exact ⟨i, _, rfl, hdocument, hlands i _ hdocument (by omega)⟩

theorem applyScene_isolates_doorEngine :
    let g := doorEngine.pulse .enter 0
    let g' := (g.applyScene otherScene).1
    g.store.poolOf? 0 = some .global ∧ g'.store.poolOf? 0 = some .global ∧
    g'.store.get? .tags 0 = g.store.get? .tags 0 ∧ g'.selectors.Waiting .enter 0 ∧
    g'.rules.toList[0]? = some ⟨enterRule, 0⟩ := by
  intro g g'
  have hdoor : doorEngine.Reached := (Reached.new smallConfig .standard).run _
  have hg : g.Reached := hdoor.perform (.pulse .enter 0)
  have hwaits : g.selectors.Waiting .enter 0 := hdoor.waiting_pulse (by decide +kernel) .enter
  obtain ⟨hentities, hrules, _, hevents, _⟩ := applyScene_isolates g hg otherScene
  have hpool : g.store.poolOf? 0 = some .global := by decide +kernel
  obtain ⟨hstays, hcomponents⟩ := hentities 0 hpool
  exact ⟨hpool, hstays, hcomponents .tags, hevents .enter 0 hpool hwaits,
    (hrules 0 ⟨enterRule, 0⟩ rfl).2.1⟩

end Isolation

end Engine
end EntityRules
