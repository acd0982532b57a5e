import EntityRules.Proofs.Engine.Population
import EntityRules.Proofs.Rule.Alike

/-!
# What a scene leaves of the past

The end of a scene frees all of its slots and all of its references, so what the next scene
finds depends on the capacities and on the global rules alone: which slots were free before,
where the selectors were, and how often anything was activated does not show.

**Results.**
* `Reached.filled_endScene`, `alike_endScene`: what the end of a scene leaves.
* `Loading.Alike.addGlobalRule`, `Loading.Alike.addRule`: rules are added alike.
* `applyScene_forgets`: two engines with equal global rules become the same scene.
-/

namespace EntityRules
namespace Engine

variable {g h : Engine} {e : Nat}

section Ending

/-- After the end of a scene none of its slots is active. -/
theorem Reached.filled_endScene (hg : g.Reached) : Filled g.config 0 g.endScene.store where
  consistent := hg.sound.consistent.perform .resetScene
  fits := Nat.zero_le _
  active e he := by
    rw [hg.isActive_endScene he]
    refine iff_of_false Bool.false_ne_true ?_
    omega

/-- Two cores of one configuration with equal rules. -/
theorem alike_of_sound {c d : Core} (hc : c.Sound) (hd : d.Sound) (hconfig : c.config = d.config)
    (hglobal : List.Forall₂ (fun a b => (a.rule == b.rule) = true) c.book.global.rules
      d.book.global.rules)
    (hscene : c.book.scene.rules.map (·.rule) = d.book.scene.rules.map (·.rule)) :
    Ledger.Alike c.ledger d.ledger := by
  refine ⟨hc.balanced, hd.balanced, ?_, ?_, hglobal, hscene⟩
  · exact hc.slots.trans ((congrArg Config.maxSelectors hconfig).trans hd.slots.symm)
  · intro partition
    cases partition with
    | global =>
        exact hc.globalRules.trans ((congrArg Config.globalRules hconfig).trans hd.globalRules.symm)
    | scene =>
        exact hc.sceneRules.trans ((congrArg Config.sceneRules hconfig).trans hd.sceneRules.symm)

theorem Reached.sound_endScene (hg : g.Reached) : g.endScene.core.Sound := by
  rw [core_endScene]
  exact ((hg.sound.perform (.rules .reset)).perform (.store .resetScene)).perform
    (.events .dropStaleEvents trivial)

/-- The rules that the end of a scene leaves are the global ones. -/
theorem alike_endScene (hg : g.Reached) (hh : h.Reached) (hconfig : g.config = h.config)
    (hrules : (g.rules.global.rules.map (·.rule) == h.rules.global.rules.map (·.rule)) = true) :
    Ledger.Alike g.endScene.core.ledger h.endScene.core.ledger := by
  have hforall := beq_iff_forall₂.mp hrules
  rw [List.forall₂_map_left_iff, List.forall₂_map_right_iff] at hforall
  exact alike_of_sound hg.sound_endScene hh.sound_endScene hconfig hforall rfl

end Ending

section Rules

theorem isSome_activate_iff (g : Engine) (partition : Partition) (rule : Rule) :
    (g.activate partition rule).2.isSome = true ↔
      ∃ handle, (g.rules.activate partition rule g.selectors).2.2 = .ok handle := by
  rw [activate_eq]
  cases (g.rules.activate partition rule g.selectors).2.2 with
  | ok handle => simp [Except.toOption]
  | error e => simp [Except.toOption]

end Rules

namespace Loading

variable {l m : Loading}

/-- Two loadings with equal rules that have brought the same. -/
structure Alike (l m : Loading) : Prop where
  ledger : Ledger.Alike l.engine.core.ledger m.engine.core.ledger
  summary : l.summary = m.summary

/-- An activation of a rule that is counted when it succeeds and dropped otherwise. -/
theorem Alike.activate (h : Alike l m) (partition : Partition) (rule : Rule) :
    Ledger.Alike (l.engine.activate partition rule).1.core.ledger
        (m.engine.activate partition rule).1.core.ledger ∧
      (l.engine.activate partition rule).2.isSome =
        (m.engine.activate partition rule).2.isSome := by
  obtain ⟨halike, hanswer⟩ := h.ledger.activate partition rule
  rw [core_activate, core_activate]
  refine ⟨⟨halike.left, halike.right, halike.slots, halike.capacity, halike.global,
    halike.scene⟩, ?_⟩
  rw [Bool.eq_iff_iff, isSome_activate_iff, isSome_activate_iff]
  exact hanswer

theorem Alike.addRule (h : Alike l m) (rule : Rule) : Alike (l.addRule rule) (m.addRule rule) := by
  obtain ⟨halike, hanswer⟩ := h.activate .scene rule
  simp only [Loading.addRule]
  rcases hl : l.engine.activate .scene rule with ⟨g, _ | handle⟩
  all_goals rcases hm : m.engine.activate .scene rule with ⟨g', _ | handle'⟩
  all_goals simp only [hl, hm] at halike hanswer
  · exact ⟨halike, by simp only [drop, h.summary]⟩
  · exact absurd hanswer (by simp)
  · exact absurd hanswer (by simp)
  · exact ⟨halike, by simp only [h.summary]⟩

theorem Alike.addGlobalRule (h : Alike l m) (rule : Rule) :
    Alike (l.addGlobalRule rule) (m.addGlobalRule rule) := by
  have hfind : (l.engine.rules.find? .global rule).isSome =
      (m.engine.rules.find? .global rule).isSome := h.ledger.find?_eq rule
  simp only [Loading.addGlobalRule, hfind]
  split
  · exact h
  · obtain ⟨halike, hanswer⟩ := h.activate .global rule
    rcases hl : l.engine.activate .global rule with ⟨g, _ | handle⟩
    all_goals rcases hm : m.engine.activate .global rule with ⟨g', _ | handle'⟩
    all_goals simp only [hl, hm] at halike hanswer
    · exact ⟨halike, by simp only [drop, h.summary]⟩
    · exact absurd hanswer (by simp)
    · exact absurd hanswer (by simp)
    · exact ⟨halike, by simp only [h.summary]⟩

theorem Alike.foldl {α : Type} {f : Loading → α → Loading}
    (hf : ∀ l m a, Alike l m → Alike (f l a) (f m a)) (h : Alike l m) (items : List α) :
    Alike (items.foldl f l) (items.foldl f m) := by
  induction items generalizing l m with
  | nil => exact h
  | cons a items ih => exact ih (hf l m a h)

/-- Rules that are added leave the store and the number of entities, and drop no less. -/
structure AddsRules (l m : Loading) : Prop where
  store : m.engine.store = l.engine.store
  entities : m.summary.entities = l.summary.entities
  dropped : l.summary.dropped ≤ m.summary.dropped

theorem AddsRules.refl (l : Loading) : AddsRules l l := ⟨rfl, rfl, Nat.le_refl _⟩

theorem AddsRules.trans {n : Loading} (hlm : AddsRules l m) (hmn : AddsRules m n) :
    AddsRules l n :=
  ⟨hmn.store.trans hlm.store, hmn.entities.trans hlm.entities,
    Nat.le_trans hlm.dropped hmn.dropped⟩

theorem store_of_activate {partition : Partition} {rule : Rule} {g : Engine}
    {handle : Option RuleHandle} (h : l.engine.activate partition rule = (g, handle)) :
    g.store = l.engine.store := by
  have hstore := l.engine.store_activate partition rule
  rw [h] at hstore
  exact hstore

theorem addsRules_addRule (l : Loading) (rule : Rule) : AddsRules l (l.addRule rule) := by
  simp only [Loading.addRule]
  split
  · next heq => exact ⟨store_of_activate heq, rfl, Nat.le_refl _⟩
  · next heq => exact ⟨store_of_activate heq, rfl, Nat.le_succ _⟩

theorem addsRules_addGlobalRule (l : Loading) (rule : Rule) :
    AddsRules l (l.addGlobalRule rule) := by
  simp only [Loading.addGlobalRule]
  split
  · exact AddsRules.refl l
  · split
    · next heq => exact ⟨store_of_activate heq, rfl, Nat.le_refl _⟩
    · next heq => exact ⟨store_of_activate heq, rfl, Nat.le_succ _⟩

theorem addsRules_foldl {α : Type} {f : Loading → α → Loading}
    (hf : ∀ l a, AddsRules l (f l a)) (l : Loading) (items : List α) :
    AddsRules l (items.foldl f l) := by
  induction items generalizing l with
  | nil => exact AddsRules.refl l
  | cons a items ih => exact (hf l a).trans (ih (f l a))

end Loading

section Scenes

theorem Reached.populates (hg : g.Reached) (scene : Scene) :
    Loading.Populates g.config 0 scene.entities (g.opening scene) (g.populated scene) :=
  Loading.populates_foldl (l := g.opening scene) hg.filled_endScene scene.entities

theorem addsRules_loaded (g : Engine) (scene : Scene) :
    Loading.AddsRules (g.populated scene) (g.loaded scene) :=
  (Loading.addsRules_foldl Loading.addsRules_addGlobalRule _ scene.globalRules).trans
    (Loading.addsRules_foldl Loading.addsRules_addRule _ scene.rules)

theorem alike_loaded (hg : g.Reached) (hh : h.Reached) (hconfig : g.config = h.config)
    (hrules : (g.rules.global.rules.map (·.rule) == h.rules.global.rules.map (·.rule)) = true)
    (scene : Scene) : Loading.Alike (g.loaded scene) (h.loaded scene) := by
  have hpopulatesG := hg.populates scene
  have hpopulatesH := hh.populates scene
  have hstart : Loading.Alike (g.populated scene) (h.populated scene) := by
    refine ⟨?_, ?_⟩
    · rw [hpopulatesG.core, hpopulatesH.core]
      exact alike_endScene hg hh hconfig hrules
    · rw [hpopulatesG.summary, hpopulatesH.summary, hconfig]
      rfl
  have hglobal := hstart.foldl (fun _ _ rule h => h.addGlobalRule rule) scene.globalRules
  exact hglobal.foldl (fun _ _ rule h => h.addRule rule) scene.rules

/-- A store in which a slot is a new entity. -/
def newcomer (e : Nat) : Store :=
  { Store.new 0 0 with slots := Array.replicate (e + 1) ⟨true, .empty⟩ }

theorem slot_newcomer (e : Nat) : (newcomer e).slot e = ⟨true, .empty⟩ := by
  simp [newcomer, Store.slot]

/-- Where the entities of a scene are afterwards. -/
theorem Reached.landed (hg : g.Reached) (scene : Scene) :
    (∀ i document, scene.entities[i]? = some document → i < g.config.sceneEntities.toNat →
      Document.Lands document (g.config.globalEntities.toNat + i) (g.applyScene scene).1.store) ∧
    ∀ e, g.config.globalEntities.toNat ≤ e →
      ((g.applyScene scene).1.store.isActive e = true ↔
        e < g.config.globalEntities.toNat +
          min scene.entities.length g.config.sceneEntities.toNat) := by
  have hpopulates := hg.populates scene
  have hstore : (g.applyScene scene).1.store = (g.populated scene).engine.store :=
    (g.addsRules_loaded scene).store
  rw [hstore]
  refine ⟨?_, ?_⟩
  · intro i document hi hlt
    have hlands := hpopulates.lands i document hi
    rw [Nat.zero_add] at hlands
    exact hlands hlt
  · intro e he
    have hactive := hpopulates.filled.active e he
    rwa [Nat.zero_add, Nat.sub_zero] at hactive

/-- A scene leaves the same documents at its slots, whatever was there before. -/
theorem document?_applyScene_congr (hg : g.Reached) (hh : h.Reached) (hconfig : g.config = h.config)
    (scene : Scene) (he : g.config.globalEntities.toNat ≤ e) :
    (g.applyScene scene).1.document? e = (h.applyScene scene).1.document? e := by
  obtain ⟨hlands, hactive⟩ := hg.landed scene
  obtain ⟨hlands', hactive'⟩ := hh.landed scene
  rw [← hconfig] at hlands' hactive'
  by_cases hlt : e < g.config.globalEntities.toNat +
      min scene.entities.length g.config.sceneEntities.toNat
  · obtain ⟨i, rfl⟩ := Nat.exists_eq_add_of_le he
    have hi : i < scene.entities.length := by omega
    have hdocument : scene.entities[i]? = some scene.entities[i] := List.getElem?_eq_getElem hi
    -- both slots are what the document makes of one and the same new entity
    have hslot := hlands i _ hdocument (by omega) (newcomer _) (slot_newcomer _)
    have hslot' := hlands' i _ hdocument (by omega) (newcomer _) (slot_newcomer _)
    exact Document.read?_congr (hslot.trans hslot'.symm)
  · have hinactive : (g.applyScene scene).1.store.isActive e = false :=
      Bool.eq_false_iff.mpr fun hon => hlt ((hactive e he).mp hon)
    have hinactive' : (h.applyScene scene).1.store.isActive e = false :=
      Bool.eq_false_iff.mpr fun hon => hlt ((hactive' e he).mp hon)
    rw [document?, document?, Document.read?, Document.read?, hinactive, hinactive']
    rfl

/-- **A scene forgets the past.**  Take two engines, after any runs, with the same capacities and
with equal lists of global rules.  A scene brings the same to both, and both have the same
rules of the scene in the same order and the same document at every slot of the scene.  Let the
number of all slots be a word, as it is in every store.  Then the document at index `i` of the scene
lands on the slot `i` places after the global ones, if the scene has that many slots, where it
shows what it makes of a new entity; the documents beyond are dropped, and the other slots of the
scene are free. -/
theorem applyScene_forgets (g h : Engine) (hg : g.Reached) (hh : h.Reached)
    (hconfig : g.config = h.config)
    (hrules : (g.rules.global.rules.map (·.rule) == h.rules.global.rules.map (·.rule)) = true)
    (scene : Scene) :
    let g' := (g.applyScene scene).1
    let h' := (h.applyScene scene).1
    let summary := (g.applyScene scene).2
    let first := g.config.globalEntities.toNat
    let room := g.config.sceneEntities.toNat
    summary = (h.applyScene scene).2 ∧
    g'.rules.scene.rules.map (·.rule) = h'.rules.scene.rules.map (·.rule) ∧
    (∀ e, first ≤ e → g'.document? e = h'.document? e) ∧
    (first + room < UInt32.size →
      g'.store.capacity = (g.config.globalEntities + g.config.sceneEntities).toNat ∧
      (∀ i document, scene.entities[i]? = some document → i < room →
        g'.store.isActive (first + i) = true ∧
        ∀ s : Store, s.slot (first + i) = ⟨true, .empty⟩ →
          g'.document? (first + i) =
            Document.read? (Document.writeTo document (first + i) s) (first + i)) ∧
      (∀ e, first + min scene.entities.length room ≤ e → g'.document? e = none) ∧
      summary.entities = min scene.entities.length room ∧
      scene.errors.length + (scene.entities.length - room) ≤ summary.dropped) := by
  intro g' h' summary first room
  have halike := alike_loaded hg hh hconfig hrules scene
  have hpopulates := hg.populates scene
  have hadds := g.addsRules_loaded scene
  obtain ⟨hlands, hactive⟩ := hg.landed scene
  have hfree : ∀ e, first + min scene.entities.length room ≤ e → g'.document? e = none := by
    intro e he
    have hinactive : g'.store.isActive e = false := by
      refine Bool.eq_false_iff.mpr fun hon => ?_
      have hlt := (hactive e (by omega)).mp hon
      omega
    rw [document?, Document.read?, hinactive]
    rfl
  refine ⟨halike.summary, halike.ledger.scene, ?_, fun hword => ⟨?_, ?_, hfree, ?_, ?_⟩⟩
  · exact fun e he => document?_applyScene_congr hg hh hconfig scene he
  · have hstore : g'.store = (g.populated scene).engine.store := hadds.store
    rw [hstore]
    exact hpopulates.filled.consistent.capacity_word hword
  · intro i document hdocument hi
    refine ⟨(hactive (first + i) (Nat.le_add_right _ _)).mpr ?_, ?_⟩
    · obtain ⟨hlength, _⟩ := List.getElem?_eq_some_iff.mp hdocument
      omega
    · intro s hs
      exact Document.read?_congr (hlands i document hdocument hi s hs)
  · refine hadds.entities.trans ?_
    rw [hpopulates.summary]
    simp [opening, room]
  · refine Nat.le_trans ?_ hadds.dropped
    rw [hpopulates.summary]
    simp [opening, room]

/-- An engine with a global rule. -/
def freshEngine : Engine :=
  (new smallConfig .standard).run [.activate .global (Ledger.tagRule "door")]

/-- An engine with the same global rule and a past: a rule of the scene came first, and of two
entities of the scene the first is gone. -/
def wornEngine : Engine :=
  (new smallConfig .standard).run
    [.activate .scene (Ledger.tagRule "key"), .activate .global (Ledger.tagRule "door"),
      .spawn .scene (.obj [("id", .str "first")]), .spawn .scene (.obj [("id", .str "second")]),
      .store (.deactivate 1), .pulse .exit 2]

/-- A scene with one entity more than there are slots, and a rule. -/
def crowdedScene : Scene :=
  ⟨"crowded", [.obj [("id", .str "a")], .obj [("id", .str "b")], .obj [("id", .str "c")]],
    [Ledger.tagRule "lamp"], [], []⟩

theorem applyScene_forgets_wornEngine :
    (wornEngine.applyScene crowdedScene).2 = (freshEngine.applyScene crowdedScene).2 ∧
    (wornEngine.applyScene crowdedScene).1.document? 2 =
      (freshEngine.applyScene crowdedScene).1.document? 2 ∧
    (wornEngine.applyScene crowdedScene).1.store.isActive 2 = true ∧
    (wornEngine.applyScene crowdedScene).2.entities = 2 := by
  have hworn : wornEngine.Reached := (Reached.new smallConfig .standard).run _
  have hfresh : freshEngine.Reached := (Reached.new smallConfig .standard).run _
  have hconfig : wornEngine.config = freshEngine.config := by
    decide +kernel
  have hrules : (wornEngine.rules.global.rules.map (·.rule) ==
      freshEngine.rules.global.rules.map (·.rule)) = true := by
    decide +kernel
  have h := applyScene_forgets wornEngine freshEngine hworn hfresh hconfig hrules crowdedScene
  obtain ⟨hsummary, _, hdocuments, hplaces⟩ := h
  obtain ⟨_, hlands, _, hentities, _⟩ := hplaces (by decide +kernel)
  refine ⟨hsummary, hdocuments 2 (by decide +kernel), ?_, ?_⟩
  · exact (hlands 1 (.obj [("id", .str "b")]) rfl (by decide +kernel)).1
  · exact hentities.trans (by decide +kernel)

end Scenes
end Engine
end EntityRules
