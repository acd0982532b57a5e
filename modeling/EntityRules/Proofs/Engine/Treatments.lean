import EntityRules.Proofs.Engine.Isolation
import EntityRules.Proofs.Rule.Pass
import EntityRules.Proofs.Scene.Compilation

/-!
# The account of a scene

A scene consists of items: its entities, its global rules and its own rules, which come in this
order.  Each of them is treated on its own, by what the engine is when the item is reached: it is
brought in, or it is a global rule that is active already, or there is no room for it and it is
dropped.  The summary counts the items by what becomes of them, and the diagnostics get the reports
of one item after another.  What is brought in is still there when the last item has been treated.

**Results.**
* `SceneSummary.total_foldl_note`: the number of the items that are counted.
* `Loading.handles_treat`, `Loading.follows_add`: one item.
* `Loading.summary_items`, `Loading.diagnostics_items`: one item after another.
* `Reached.shows_applyScene`: what is counted as brought in is there.
* `applyScene_accounts`: the definitions of a file, and the items of its scene.
-/

namespace EntityRules

/-- What a scene brings in. -/
inductive SceneItem where
  | entity (document : Json)
  | globalRule (rule : Rule)
  | rule (rule : Rule)

/-- The items of a scene in the order in which they come. -/
def Scene.items (scene : Scene) : List SceneItem :=
  scene.entities.map .entity ++ scene.globalRules.map .globalRule ++ scene.rules.map .rule

/-- What becomes of an item. -/
inductive Fate where
  | brought
  /-- An equal global rule is active. -/
  | known
  /-- There is no room. -/
  | dropped
deriving DecidableEq

/-- An item, what becomes of it, and the failures that it reports. -/
structure Treatment where
  item : SceneItem
  fate : Fate
  reports : List Failure

namespace Treatment

/-- An item that is known, and is neither brought in nor dropped. -/
def isKnown (t : Treatment) : Bool := decide (t.fate = .known)

end Treatment

namespace SceneSummary

/-- Counts an item by what becomes of it. -/
def note (s : SceneSummary) (t : Treatment) : SceneSummary :=
  match t.fate, t.item with
  | .known, _ => s
  | .dropped, _ => { s with dropped := s.dropped + 1 }
  | .brought, .entity _ => { s with entities := s.entities + 1 }
  | .brought, .globalRule _ => { s with globalRules := s.globalRules + 1 }
  | .brought, .rule _ => { s with rules := s.rules + 1 }

/-- All that is counted. -/
def total (s : SceneSummary) : Nat := s.entities + s.rules + s.globalRules + s.dropped

theorem total_note (s : SceneSummary) (t : Treatment) :
    (s.note t).total + (if t.isKnown then 1 else 0) = s.total + 1 := by
  obtain ⟨item, fate, reports⟩ := t
  cases fate with
  | known => rfl
  | dropped => rfl
  | brought => cases item <;> simp [note, total, Treatment.isKnown] <;> omega

/-- Each item is counted, except those that are known. -/
theorem total_foldl_note (s : SceneSummary) (l : List Treatment) :
    (l.foldl note s).total + l.countP Treatment.isKnown = s.total + l.length := by
  induction l generalizing s with
  | nil => rfl
  | cons t l ih =>
      have hnote := s.total_note t
      have hrest := ih (s.note t)
      rw [List.foldl_cons, List.countP_cons, List.length_cons]
      omega

end SceneSummary

/-- An activation fails for want of room. -/
theorem RuleBook.kind_of_activate {b : RuleBook} {partition : Partition} {rule : Rule}
    {r : Registry} {e : Failure} (h : (b.activate partition rule r).2.2 = .error e) :
    e.kind = .capacityExceeded := by
  rw [activate] at h
  split at h
  · cases h
    rfl
  · rcases r.track_cases rule.source with
      ⟨slot, t, _, _, heq⟩ | ⟨_, ⟨slot, _, heq⟩ | ⟨_, heq⟩⟩
    · rw [heq] at h
      cases h
    · rw [heq] at h
      cases h
    · rw [heq] at h
      cases h
      rfl

namespace Engine

/-! ## One item -/

/-- An activation answers with a handle and reports nothing, or it reports once, for want of
room. -/
theorem activate_cases (g : Engine) (partition : Partition) (rule : Rule) :
    (∃ h handle, g.activate partition rule = (h, some handle) ∧ h.diagnostics = g.diagnostics ∧
        (g.rules.activate partition rule g.selectors).2.2 = .ok handle) ∨
      ∃ h e, g.activate partition rule = (h, none) ∧ h.diagnostics = g.diagnostics.report e ∧
        (g.rules.activate partition rule g.selectors).2.2 = .error e := by
  rw [Engine.activate_eq]
  cases (g.rules.activate partition rule g.selectors).2.2 with
  | ok handle => exact Or.inl ⟨_, handle, rfl, rfl, rfl⟩
  | error e => exact Or.inr ⟨_, e, rfl, rfl, rfl⟩

namespace Loading

variable {l : Loading} {item : SceneItem}

/-- Adds an item of a scene. -/
def add (l : Loading) : SceneItem → Loading
  | .entity document => l.addEntity document
  | .globalRule rule => l.addGlobalRule rule
  | .rule rule => l.addRule rule

/-- Whether an item is a global rule and an equal one is active. -/
def knows (l : Loading) : SceneItem → Bool
  | .globalRule rule => l.engine.rules.global.rules.any (·.rule == rule)
  | _ => false

/-- The treatment of a rule for a partition. -/
def treatRule (l : Loading) (item : SceneItem) (partition : Partition) (rule : Rule) : Treatment :=
  match (l.engine.rules.activate partition rule l.engine.selectors).2.2 with
  | .ok _ => ⟨item, .brought, []⟩
  | .error e => ⟨item, .dropped, [e]⟩

/-- The treatment of an item that is reached. -/
def treat (l : Loading) (item : SceneItem) : Treatment :=
  if l.knows item then ⟨item, .known, []⟩
  else
    match item with
    | .entity document =>
      match l.engine.store.activate .scene with
      | (_, .error _) =>
        ⟨item, .dropped, [.capacityExceeded "scene entity" (l.engine.store.pool .scene).capacity]⟩
      | (s, .ok e) =>
        match Document.write document e s with
        | .ok o => ⟨item, .brought, o.failures⟩
        | .error fault => ⟨item, .brought, [fault]⟩
    | .globalRule rule => l.treatRule item .global rule
    | .rule rule => l.treatRule item .scene rule

/-- A treatment of an item that is new: it is brought in, or it is dropped, which it reports once,
for want of room. -/
def Handles (item : SceneItem) (t : Treatment) : Prop :=
  (∃ reports, t = ⟨item, .brought, reports⟩) ∨
    ∃ e, e.kind = .capacityExceeded ∧ t = ⟨item, .dropped, [e]⟩

/-- A loading that has counted an item and has its reports. -/
structure Follows (l m : Loading) (t : Treatment) : Prop where
  summary : m.summary = l.summary.note t
  diagnostics : m.engine.diagnostics = l.engine.diagnostics.reportAll t.reports

theorem handles_entity (l : Loading) (document : Json) :
    Handles (.entity document) (l.treat (.entity document)) ∧
      Follows l (l.addEntity document) (l.treat (.entity document)) := by
  have hnew : l.knows (.entity document) = false := rfl
  cases hactivate : l.engine.store.activate .scene with
  | mk s answer =>
      cases answer with
      | error fault =>
          simp only [treat, hnew, Bool.false_eq_true, if_false, addEntity, spawn, hactivate]
          exact ⟨Or.inr ⟨_, rfl, rfl⟩, rfl, rfl⟩
      | ok e =>
          simp only [treat, hnew, Bool.false_eq_true, if_false, addEntity, spawn, hactivate]
          cases Document.write document e s with
          | ok o => exact ⟨Or.inl ⟨_, rfl⟩, rfl, rfl⟩
          | error fault => exact ⟨Or.inl ⟨_, rfl⟩, rfl, rfl⟩

theorem handles_treatRule (l : Loading) (item : SceneItem) (partition : Partition) (rule : Rule) :
    Handles item (l.treatRule item partition rule) := by
  rw [treatRule]
  split
  · exact Or.inl ⟨[], rfl⟩
  · next e hanswer => exact Or.inr ⟨e, RuleBook.kind_of_activate hanswer, rfl⟩

theorem follows_addRule (l : Loading) (rule : Rule) :
    Follows l (l.addRule rule) (l.treatRule (.rule rule) .scene rule) := by
  rw [treatRule, addRule]
  rcases l.engine.activate_cases .scene rule with
    ⟨g, handle, hactivate, hsame, hanswer⟩ | ⟨g, e, hactivate, hreport, hanswer⟩
  · rw [hactivate, hanswer]
    exact ⟨rfl, hsame⟩
  · rw [hactivate, hanswer]
    exact ⟨rfl, hreport⟩

theorem addGlobalRule_of_knows {rule : Rule} (h : l.knows (.globalRule rule) = true) :
    l.addGlobalRule rule = l := by
  rw [addGlobalRule, RuleBook.isSome_find?]
  exact if_pos h

theorem follows_addGlobalRule {rule : Rule} (h : l.knows (.globalRule rule) = false) :
    Follows l (l.addGlobalRule rule) (l.treatRule (.globalRule rule) .global rule) := by
  have hnew : (l.engine.rules.find? .global rule).isSome = false :=
    (l.engine.rules.isSome_find? .global rule).trans h
  rw [treatRule, addGlobalRule, hnew, if_neg Bool.false_ne_true]
  rcases l.engine.activate_cases .global rule with
    ⟨g, handle, hactivate, hsame, hanswer⟩ | ⟨g, e, hactivate, hreport, hanswer⟩
  · rw [hactivate, hanswer]
    exact ⟨rfl, hsame⟩
  · rw [hactivate, hanswer]
    exact ⟨rfl, hreport⟩

theorem knows_iff (l : Loading) (item : SceneItem) :
    l.knows item = true ↔
      ∃ rule, item = .globalRule rule ∧
        ∃ active ∈ l.engine.rules.global.rules, (active.rule == rule) = true := by
  cases item with
  | globalRule rule =>
      rw [knows, List.any_eq_true]
      constructor
      · exact fun hactive => ⟨rule, rfl, hactive⟩
      · rintro ⟨other, heq, hactive⟩
        rwa [SceneItem.globalRule.inj heq]
  | entity document => exact ⟨nofun, nofun⟩
  | rule rule => exact ⟨nofun, nofun⟩

theorem treat_of_knows (h : l.knows item = true) : l.treat item = ⟨item, .known, []⟩ :=
  if_pos h

/-- An item that is not known is brought in or dropped. -/
theorem handles_treat (h : l.knows item = false) : Handles item (l.treat item) := by
  cases item with
  | entity document => exact (l.handles_entity document).1
  | globalRule rule =>
      rw [treat, h, if_neg Bool.false_ne_true]
      exact l.handles_treatRule (.globalRule rule) .global rule
  | rule rule => exact l.handles_treatRule (.rule rule) .scene rule

/-- An item is counted by what becomes of it, and it brings its reports. -/
theorem follows_add (l : Loading) (item : SceneItem) : Follows l (l.add item) (l.treat item) := by
  cases hknows : l.knows item with
  | true =>
      rw [treat_of_knows hknows]
      cases item with
      | globalRule rule =>
          rw [add, addGlobalRule_of_knows hknows]
          exact ⟨rfl, rfl⟩
      | entity document => cases hknows
      | rule rule => cases hknows
  | false =>
      cases item with
      | entity document => exact (l.handles_entity document).2
      | globalRule rule =>
          rw [treat, hknows, if_neg Bool.false_ne_true]
          exact follows_addGlobalRule hknows
      | rule rule => exact l.follows_addRule rule

theorem item_treat (l : Loading) (item : SceneItem) : (l.treat item).item = item := by
  cases hknows : l.knows item with
  | true => rw [treat_of_knows hknows]
  | false =>
      rcases handles_treat hknows with ⟨reports, htreat⟩ | ⟨e, _, htreat⟩
      · rw [htreat]
      · rw [htreat]

/-- Known are the global rules of which an equal one is active when they are reached. -/
theorem fate_treat_eq_known_iff (l : Loading) (item : SceneItem) :
    (l.treat item).fate = .known ↔ l.knows item = true := by
  cases hknows : l.knows item with
  | true =>
      rw [treat_of_knows hknows]
      exact iff_of_true rfl rfl
  | false =>
      rcases handles_treat hknows with ⟨reports, htreat⟩ | ⟨e, _, htreat⟩
      · rw [htreat]
        exact iff_of_false Fate.noConfusion Bool.false_ne_true
      · rw [htreat]
        exact iff_of_false Fate.noConfusion Bool.false_ne_true

/-- An item is dropped for want of room, which is all that it reports. -/
theorem reports_of_dropped (h : (l.treat item).fate = .dropped) :
    ∃ e, (l.treat item).reports = [e] ∧ e.kind = .capacityExceeded := by
  cases hknows : l.knows item with
  | true =>
      rw [treat_of_knows hknows] at h
      cases h
  | false =>
      rcases handles_treat hknows with ⟨reports, htreat⟩ | ⟨e, hkind, htreat⟩
      · rw [htreat] at h
        cases h
      · exact ⟨e, by rw [htreat], hkind⟩

/-! ## The items of a scene -/

/-- The treatments of items, each by the loading after those before it. -/
def treatments (l : Loading) (items : List SceneItem) : List Treatment :=
  outputs add (fun l item => [l.treat item]) l items

theorem treatments_cons (l : Loading) (item : SceneItem) (items : List SceneItem) :
    l.treatments (item :: items) = l.treat item :: (l.add item).treatments items :=
  rfl

theorem map_item_treatments (l : Loading) (items : List SceneItem) :
    (l.treatments items).map Treatment.item = items := by
  induction items generalizing l with
  | nil => rfl
  | cons item items ih => rw [treatments_cons, List.map_cons, item_treat, ih]

/-- An item is treated by the loading after those before it. -/
theorem treatments_getElem? (l : Loading) (earlier : List SceneItem) (item : SceneItem)
    (later : List SceneItem) :
    (l.treatments (earlier ++ item :: later))[earlier.length]? =
      some ((earlier.foldl add l).treat item) := by
  induction earlier generalizing l with
  | nil => rfl
  | cons first earlier ih => exact ih (l.add first)

theorem mem_treatments {t : Treatment} {l : Loading} {items : List SceneItem}
    (h : t ∈ l.treatments items) : ∃ (m : Loading) (item : SceneItem), t = m.treat item := by
  induction items generalizing l with
  | nil => cases h
  | cons item items ih =>
      rw [treatments_cons] at h
      rcases List.mem_cons.mp h with heq | hmem
      · exact ⟨l, item, heq⟩
      · exact ih hmem

/-- Each item is counted by what becomes of it. -/
theorem summary_items (l : Loading) (items : List SceneItem) :
    (items.foldl add l).summary = (l.treatments items).foldl SceneSummary.note l.summary := by
  induction items generalizing l with
  | nil => rfl
  | cons item items ih =>
      rw [List.foldl_cons, ih, treatments_cons, List.foldl_cons, (l.follows_add item).summary]

/-- The reports of one item come after those of another. -/
theorem diagnostics_items (l : Loading) (items : List SceneItem) :
    (items.foldl add l).engine.diagnostics =
      l.engine.diagnostics.reportAll ((l.treatments items).flatMap Treatment.reports) := by
  induction items generalizing l with
  | nil => rfl
  | cons item items ih =>
      rw [List.foldl_cons, ih, treatments_cons, List.flatMap_cons, Diagnostics.reportAll_append,
        (l.follows_add item).diagnostics]

end Loading

/-- The treatments of the items of a scene. -/
def treatments (g : Engine) (scene : Scene) : List Treatment :=
  (g.opening scene).treatments scene.items

theorem loaded_eq (g : Engine) (scene : Scene) :
    g.loaded scene = scene.items.foldl Loading.add (g.opening scene) := by
  rw [Scene.items, List.foldl_append, List.foldl_append, List.foldl_map, List.foldl_map,
    List.foldl_map]
  rfl

/-! ## What is brought in -/

/-- What an item that is brought in leaves: an entity that its document makes, or its rule. -/
def Shows (g : Engine) : SceneItem → Prop
  | .entity document => ∃ e, g.store.isActive e = true ∧ Document.Lands document e g.store
  | .globalRule rule => ∃ active ∈ g.rules.global.rules, active.rule = rule
  | .rule rule => ∃ active ∈ g.rules.scene.rules, active.rule = rule

/-- The active entities and the rules of an engine are also those of another one. -/
structure Extends (g h : Engine) : Prop where
  slots : ∀ e, g.store.isActive e = true → h.store.slot e = g.store.slot e
  rules : ∀ partition, (g.rules.bucket partition).rules <+: (h.rules.bucket partition).rules

theorem Extends.refl (g : Engine) : Extends g g := ⟨fun _ _ => rfl, fun _ => List.prefix_rfl⟩

theorem Extends.trans {g h k : Engine} (hgh : Extends g h) (hhk : Extends h k) : Extends g k where
  slots e he := by
    have hactive : h.store.isActive e = true := by
      rwa [Store.isActive, hgh.slots e he]
    rw [hhk.slots e hactive, hgh.slots e he]
  rules partition := (hgh.rules partition).trans (hhk.rules partition)

theorem Shows.extends {g h : Engine} {item : SceneItem} (hshows : g.Shows item)
    (hextends : Extends g h) : h.Shows item := by
  cases item with
  | entity document =>
      obtain ⟨e, hactive, hlands⟩ := hshows
      have hslot := hextends.slots e hactive
      refine ⟨e, ?_, fun s hs => hslot.trans (hlands s hs)⟩
      rwa [Store.isActive, hslot]
  | globalRule rule =>
      obtain ⟨active, hmem, hrule⟩ := hshows
      exact ⟨active, (hextends.rules .global).subset hmem, hrule⟩
  | rule rule =>
      obtain ⟨active, hmem, hrule⟩ := hshows
      exact ⟨active, (hextends.rules .scene).subset hmem, hrule⟩

/-- A rule that is activated is the last one of its partition. -/
theorem mem_rules_activate {g : Engine} {partition : Partition} {rule : Rule} {handle : RuleHandle}
    (h : (g.rules.activate partition rule g.selectors).2.2 = .ok handle) :
    ∃ active ∈ ((g.activate partition rule).1.rules.bucket partition).rules,
      active.rule = rule := by
  obtain ⟨slot, -, heq, -⟩ := RuleBook.registers_of_activate h
  have hbook : (g.activate partition rule).1.rules =
      (g.rules.activate partition rule g.selectors).1 :=
    congrArg Core.book (g.core_activate partition rule)
  rw [hbook, heq, RuleBook.bucket_setBucket, if_pos rfl]
  exact ⟨⟨rule, slot⟩, List.mem_append_right _ (List.mem_singleton_self _), rfl⟩

namespace Loading

variable {l : Loading} {item : SceneItem}

theorem leads_add (l : Loading) (item : SceneItem) :
    Core.Leads CoreAction.Builds l.engine.core (l.add item).engine.core := by
  cases item with
  | entity document => exact l.leads_addEntity document
  | globalRule rule => exact l.leads_addGlobalRule rule
  | rule rule => exact l.leads_addRule rule

/-- An item changes no slot that is active. -/
theorem slot_add (hl : l.engine.core.Sound) {e : Nat} (he : l.engine.store.isActive e = true)
    (item : SceneItem) : (l.add item).engine.store.slot e = l.engine.store.slot e := by
  cases item with
  | globalRule rule => exact congrArg (Store.slot · e) (l.addsRules_addGlobalRule rule).store
  | rule rule => exact congrArg (Store.slot · e) (l.addsRules_addRule rule).store
  | entity document =>
      rcases l.engine.spawn_cases .scene document with ⟨_, hnone, hcore⟩ | ⟨f, hok, hsome, hcore⟩
      · rw [add, addEntity_of_none hnone rfl]
        exact congrArg (Store.slot · e) (congrArg Core.store hcore)
      · obtain ⟨hfree, -, -, hsame⟩ := Document.lands_activate hl.consistent hok document
        rw [add, addEntity_of_some hsome rfl]
        refine (congrArg (Store.slot · e) (congrArg Core.store hcore)).trans (hsame e ?_)
        -- the new entity takes a slot that was free
        rintro rfl
        exact Bool.false_ne_true (hfree.symm.trans he)

theorem extends_add (hl : l.engine.core.Sound) (item : SceneItem) :
    Extends l.engine (l.add item).engine :=
  ⟨fun _ he => slot_add hl he item, prefix_of_leads (l.leads_add item)⟩

theorem extends_foldl_add (hl : l.engine.core.Sound) (items : List SceneItem) :
    Extends l.engine (items.foldl add l).engine := by
  induction items generalizing l with
  | nil => exact Extends.refl l.engine
  | cons item items ih => exact (extends_add hl item).trans (ih (hl.leads (l.leads_add item)))

/-- An item that is brought in is there. -/
theorem shows_add (hl : l.engine.core.Sound) (h : (l.treat item).fate = .brought) :
    (l.add item).engine.Shows item := by
  cases item with
  | entity document =>
      have hnew : l.knows (.entity document) = false := rfl
      rcases l.engine.spawn_cases .scene document with ⟨⟨fault, hfault⟩, _⟩ | ⟨e, hok, hsome, hcore⟩
      · cases hactivate : l.engine.store.activate .scene with
        | mk s answer =>
            rw [hactivate] at hfault
            obtain rfl : answer = .error fault := hfault
            simp [treat, hnew, hactivate] at h
      · obtain ⟨-, hactive, hlands, -⟩ := Document.lands_activate hl.consistent hok document
        have hstore : (l.add (.entity document)).engine.store =
            Document.writeTo document e (l.engine.store.activate .scene).1 := by
          rw [add, addEntity_of_some hsome rfl]
          exact congrArg Core.store hcore
        rw [Shows, hstore]
        exact ⟨e, hactive, hlands⟩
  | globalRule rule =>
      cases hknows : l.knows (.globalRule rule) with
      | true =>
          rw [treat_of_knows hknows] at h
          cases h
      | false =>
          have hnew : (l.engine.rules.find? .global rule).isSome = false :=
            (l.engine.rules.isSome_find? .global rule).trans hknows
          simp only [treat, hknows, Bool.false_eq_true, if_false, treatRule] at h
          split at h
          · next handle hanswer =>
            rw [Shows, add, engine_addGlobalRule, hnew, if_neg Bool.false_ne_true]
            exact mem_rules_activate hanswer
          · cases h
  | rule rule =>
      simp only [treat, knows, Bool.false_eq_true, if_false, treatRule] at h
      split at h
      · next handle hanswer =>
        rw [Shows, add, engine_addRule]
        exact mem_rules_activate hanswer
      · cases h

/-- What items bring in is there after all of them. -/
theorem shows_items (hl : l.engine.core.Sound) {items : List SceneItem} {t : Treatment}
    (ht : t ∈ l.treatments items) (hbrought : t.fate = .brought) :
    (items.foldl add l).engine.Shows t.item := by
  induction items generalizing l with
  | nil => cases ht
  | cons item items ih =>
      have hnext : (l.add item).engine.core.Sound := hl.leads (l.leads_add item)
      rw [treatments_cons] at ht
      rcases List.mem_cons.mp ht with rfl | hrest
      · rw [item_treat]
        exact (shows_add hl hbrought).extends (extends_foldl_add hnext items)
      · exact ih hnext hrest

end Loading

/-- After any run, the items that are counted as brought in are there when the scene has come: each
document on the slot of an active entity, and each rule in its partition. -/
theorem Reached.shows_applyScene {g : Engine} (hg : g.Reached) (scene : Scene) {t : Treatment}
    (ht : t ∈ g.treatments scene) (hbrought : t.fate = .brought) :
    (g.applyScene scene).1.Shows t.item := by
  have hopening : (g.opening scene).engine.core.Sound := hg.sound_endScene
  have hshows := Loading.shows_items hopening ht hbrought
  rw [← loaded_eq] at hshows
  -- the match of the selectors at the end leaves the entities and the rules
  exact hshows.extends ⟨fun _ _ => rfl, fun _ => List.prefix_rfl⟩

/-- **The account of a scene.**  The definitions of a file fall into the rules of those that decode
and compile, in order, and one error for each of the others.  The entities and those rules are
treated one after another.  Each is counted once, unless it is a global rule of which an equal one
is active when it is reached, and each that is dropped is reported once, for want of room. -/
theorem applyScene_accounts (g : Engine) (source : String) (file : SceneSource) :
    let scene := Scene.compile source file
    let treated := g.treatments scene
    let applied := g.applyScene scene
    (scene.rules = file.rules.filterMap Scene.rule? ∧
      scene.globalRules = file.globalRules.filterMap Scene.rule? ∧
      scene.errors =
        Scene.faults "rules" 0 file.rules ++ Scene.faults "globalRules" 0 file.globalRules ∧
      scene.errors.length =
        (file.rules ++ file.globalRules).countP fun value => (Scene.rule? value).isNone) ∧
      treated.map Treatment.item =
        file.entities.map .entity ++ scene.globalRules.map .globalRule ++
          scene.rules.map .rule ∧
      applied.2 = treated.foldl SceneSummary.note { dropped := scene.errors.length } ∧
      applied.2.entities + applied.2.rules + applied.2.globalRules + applied.2.dropped +
          treated.countP Treatment.isKnown =
        file.entities.length + file.rules.length + file.globalRules.length ∧
      applied.1.diagnostics =
        g.diagnostics.reportAll (scene.errors ++ treated.flatMap Treatment.reports) ∧
      (∀ t ∈ treated, t.fate = .dropped → ∃ e, t.reports = [e] ∧ e.kind = .capacityExceeded) ∧
      ∀ (earlier : List SceneItem) (item : SceneItem) (later : List SceneItem),
        scene.items = earlier ++ item :: later →
        let l := earlier.foldl Loading.add (g.opening scene)
        treated[earlier.length]? = some (l.treat item) ∧
          ((l.treat item).fate = .known ↔
            ∃ rule, item = .globalRule rule ∧
              ∃ active ∈ l.engine.rules.global.rules, (active.rule == rule) = true) := by
  intro scene treated applied
  have hitems : treated.map Treatment.item = scene.items :=
    (g.opening scene).map_item_treatments scene.items
  have hsummary : applied.2 =
      treated.foldl SceneSummary.note { dropped := scene.errors.length } := by
    have hloaded := (g.opening scene).summary_items scene.items
    rwa [← loaded_eq] at hloaded
  have hdiagnostics : applied.1.diagnostics =
      g.diagnostics.reportAll (scene.errors ++ treated.flatMap Treatment.reports) := by
    have hloaded := (g.opening scene).diagnostics_items scene.items
    rw [← loaded_eq] at hloaded
    exact hloaded.trans (Diagnostics.reportAll_append _ _ _).symm
  refine ⟨⟨Scene.rules_compile source file, Scene.globalRules_compile source file,
    Scene.errors_compile source file, ?_⟩, hitems, hsummary, ?_, hdiagnostics, ?_, ?_⟩
  · rw [List.countP_append, ← Scene.length_faults "rules" 0,
      ← Scene.length_faults "globalRules" 0, ← List.length_append, ← Scene.errors_compile source]
  · -- the count begins with the definitions that gave no rule
    have htotal := SceneSummary.total_foldl_note { dropped := scene.errors.length } treated
    have hlength : treated.length =
        file.entities.length + scene.globalRules.length + scene.rules.length := by
      rw [← List.length_map Treatment.item, hitems, Scene.items]
      simp only [List.length_append, List.length_map]
      rfl
    have hdefinitions : scene.rules.length + scene.globalRules.length + scene.errors.length =
        file.rules.length + file.globalRules.length :=
      Scene.length_compile source file
    rw [← hsummary] at htotal
    simp only [SceneSummary.total] at htotal
    omega
  · intro t ht hdropped
    obtain ⟨m, item, rfl⟩ := Loading.mem_treatments ht
    exact Loading.reports_of_dropped hdropped
  · intro earlier item later hsplit l
    refine ⟨?_, ?_⟩
    · have hreached := (g.opening scene).treatments_getElem? earlier item later
      rwa [← hsplit] at hreached
    · rw [Loading.fate_treat_eq_known_iff, Loading.knows_iff]

/-- The definition of a rule on the entities with a tag. -/
def tagDefinition (tag : String) : Json :=
  .obj [("do", .obj [("deactivate", .bool true)]), ("from", .str ("#" ++ tag))]

/-- A scene with an entity and a global rule for which there is no room, a global rule that comes
twice, and a definition that does not decode. -/
def crowdedFile : SceneSource where
  entities := [.obj [], .obj [("id", .str "a")], .obj []]
  rules := [.null, tagDefinition "door"]
  globalRules := [tagDefinition "lamp", tagDefinition "lamp", tagDefinition "key"]

theorem applyScene_accounts_crowdedFile :
    let g := new smallConfig .standard
    let scene := Scene.compile "crowded" crowdedFile
    (g.applyScene scene).2 = ⟨2, 1, 1, 3⟩ ∧
      (g.treatments scene).countP Treatment.isKnown = 1 := by
  intro g scene
  obtain ⟨_, _, _, hcount, _⟩ := applyScene_accounts g "crowded" crowdedFile
  have hsummary : (g.applyScene scene).2 = ⟨2, 1, 1, 3⟩ := by decide +kernel
  rw [hsummary] at hcount
  exact ⟨hsummary, Nat.add_left_cancel (n := 7) hcount⟩

end Engine
end EntityRules
