import EntityRules.Proofs.Engine.Isolation

/-!
# A scene applied twice

The global rules of a scene are added unless they are active, and they outlive it.  When the
scene is applied again, those that were added are active, and those that were dropped find no
room again: the global rules are the same, and the selectors that are tracked then are those
of the global rules alone, as they were before the rules of the scene came.

**Results.**
* `Ledger.Shut.push`: a rule for which there is no room finds none after another was added.
* `Loading.settles_foldl`: after its turn a global rule is active or shut out, to the end; the
  dropped ones are those that are not active at the end.
* `Loading.foldl_addGlobalRule_of_settled`: settled rules change nothing and are dropped again.
* `applyScene_applyScene`: what a scene applied twice leaves.
-/

namespace EntityRules

namespace Ledger

variable {l m : Ledger} {rule other : Rule} {slot : Nat}

/-- A global rule is active. -/
def Has (l : Ledger) (rule : Rule) : Prop := (l.book.find? .global rule).isSome = true

/-- A global rule is not active and there is no room for it. -/
def Shut (l : Ledger) (rule : Rule) : Prop := ¬l.Has rule ∧ l.NoRoom .global rule

instance (l : Ledger) (rule : Rule) : Decidable (l.Has rule) :=
  inferInstanceAs (Decidable (_ = true))

theorem has_iff : l.Has rule ↔ ∃ active ∈ l.book.global.rules, (active.rule == rule) = true := by
  rw [Has, RuleBook.isSome_find?, List.any_eq_true]
  rfl

/-- A further global rule, which was not active and for which there was room. -/
structure Pushes (l m : Ledger) (rule : Rule) : Prop where
  left : l.Balanced
  right : m.Balanced
  new : ¬l.Has rule
  room : ¬l.NoRoom .global rule
  capacity : m.registry.capacity = l.registry.capacity
  book : ∃ slot, m.book = { l.book with global := l.book.global.push ⟨rule, slot⟩ }

theorem Pushes.has_iff (h : Pushes l m other) :
    m.Has rule ↔ l.Has rule ∨ (other == rule) = true := by
  obtain ⟨slot, hbook⟩ := h.book
  rw [Ledger.has_iff, Ledger.has_iff, hbook]
  simp only [Bucket.push, List.mem_append, List.mem_singleton]
  constructor
  · rintro ⟨active, hactive | rfl, heq⟩
    · exact Or.inl ⟨active, hactive, heq⟩
    · exact Or.inr heq
  · rintro (⟨active, hactive, heq⟩ | heq)
    · exact ⟨active, Or.inl hactive, heq⟩
    · exact ⟨_, Or.inr rfl, heq⟩

theorem Pushes.sources_perm (h : Pushes l m other) :
    (other.source :: l.book.sources).Perm m.book.sources := by
  obtain ⟨slot, hbook⟩ := h.book
  have hperm := (l.book.push_perm .global ⟨other, slot⟩).map Prod.fst
  rw [List.map_cons, RuleBook.map_fst_holds, RuleBook.map_fst_holds] at hperm
  rw [hbook]
  exact hperm

/-- A rule for which there is no room finds none after another was added: the other took up no
selector, since all slots were taken, or the partition would have been full for it too. -/
theorem Shut.push (hshut : l.Shut rule) (h : Pushes l m other) : m.Shut rule := by
  obtain ⟨hnot, hno⟩ := hshut
  rw [h.left.noRoom_iff] at hno
  obtain ⟨hpartition, hslots⟩ := not_or.mp (mt (h.left.noRoom_iff .global other).mpr h.room)
  obtain ⟨hnew, htaken⟩ := hno.resolve_left hpartition
  have htracked : other.source ∈ l.book.sources := by
    by_contra hout
    exact hslots ⟨hout, htaken⟩
  refine ⟨?_, ?_⟩
  · rw [h.has_iff]
    rintro (hhas | heq)
    · exact hnot hhas
    · exact hnew ((Rule.beq_iff.mp heq).2.1 ▸ htracked)
  · rw [h.right.noRoom_iff, ← h.sources_perm.mem_iff, ← h.sources_perm.dedup.length_eq,
      List.dedup_cons_of_mem htracked, h.capacity]
    refine Or.inr ⟨fun hmem => ?_, htaken⟩
    rcases List.mem_cons.mp hmem with heq | hmem
    · exact hnew (heq ▸ htracked)
    · exact hnew hmem

/-- Ledgers with equal rules shut out the same. -/
theorem Alike.has_iff (h : Alike l m) : l.Has rule ↔ m.Has rule := by
  rw [Has, Has, h.find?_eq]

theorem Alike.shut_iff (h : Alike l m) : l.Shut rule ↔ m.Shut rule := by
  rw [Shut, Shut, h.has_iff, h.noRoom_iff]

end Ledger

namespace Engine
namespace Loading

variable {l m : Loading} {rule : Rule}

/-- All that adding a global rule can do. -/
theorem addGlobalRule_cases (h : l.engine.core.ledger.Balanced) (rule : Rule) :
    (l.engine.core.ledger.Has rule ∧ l.addGlobalRule rule = l) ∨
    (l.engine.core.ledger.Shut rule ∧
      (l.addGlobalRule rule).engine.core = l.engine.core ∧
      (l.addGlobalRule rule).summary =
        { l.summary with dropped := l.summary.dropped + 1 }) ∨
    (Ledger.Pushes l.engine.core.ledger (l.addGlobalRule rule).engine.core.ledger rule ∧
      (l.addGlobalRule rule).summary =
        { l.summary with globalRules := l.summary.globalRules + 1 }) := by
  by_cases hhas : l.engine.core.ledger.Has rule
  · left
    refine ⟨hhas, ?_⟩
    have hfind : (l.engine.rules.find? .global rule).isSome = true := hhas
    rw [addGlobalRule, if_pos hfind]
  · right
    have hfind : ¬(l.engine.rules.find? .global rule).isSome = true := hhas
    have hcore := core_activate l.engine .global rule
    have hanswer := isSome_activate_iff l.engine .global rule
    have hbalanced : (l.engine.activate .global rule).1.core.ledger.Balanced := by
      rw [hcore]
      exact h.perform (.activate .global rule)
    rcases hactivate : l.engine.activate .global rule with ⟨g, handle⟩
    rw [hactivate] at hcore hanswer hbalanced
    have hadd : l.addGlobalRule rule =
        if handle.isSome then
          ⟨g, { l.summary with globalRules := l.summary.globalRules + 1 }⟩
        else l.drop g := by
      rw [addGlobalRule, if_neg hfind, hactivate]
      cases handle <;> rfl
    rcases h.activate_outcome .global rule with ⟨hno, e, heq⟩ | ⟨hroom, slot, r, other, heq⟩
    · left
      have hnone : ¬handle.isSome = true := by
        rw [hanswer]
        rintro ⟨other, hok⟩
        have hboth := hok.symm.trans (congrArg (·.2.2) heq)
        cases hboth
      rw [hadd, if_neg hnone]
      refine ⟨⟨hhas, hno⟩, ?_, rfl⟩
      rw [drop, hcore, Core.perform, Ledger.perform, heq]
      rfl
    · right
      have hsome : handle.isSome = true := hanswer.mpr ⟨other, congrArg (·.2.2) heq⟩
      rw [hadd, if_pos hsome]
      have hbook : g.core.book = { l.engine.core.book with
          global := l.engine.core.book.global.push ⟨rule, slot⟩ } := by
        rw [hcore, Core.perform, Ledger.perform, heq]
        rfl
      have hcapacity : g.core.registry.capacity = l.engine.core.registry.capacity := by
        rw [hcore]
        exact l.engine.core.ledger.capacity_registry_perform (.activate .global rule)
      exact ⟨⟨h, hbalanced, hhas, hroom, hcapacity, slot, hbook⟩, rfl⟩

/-- What holds of the global rules after a list of them was added: each is active or shut out,
those that were active or shut out before still are, and those that are not active have been
dropped. -/
structure Settles (rules : List Rule) (l m : Loading) : Prop where
  balanced : m.engine.core.ledger.Balanced
  settled : ∀ rule ∈ rules, m.engine.core.ledger.Has rule ∨ m.engine.core.ledger.Shut rule
  has : ∀ rule, l.engine.core.ledger.Has rule → m.engine.core.ledger.Has rule
  shut : ∀ rule, l.engine.core.ledger.Shut rule → m.engine.core.ledger.Shut rule
  summary : ∃ count, m.summary =
    { l.summary with
      globalRules := count
      dropped := l.summary.dropped +
        rules.countP fun rule => ¬m.engine.core.ledger.Has rule }

theorem settles_nil (h : l.engine.core.ledger.Balanced) : Settles [] l l where
  balanced := h
  settled rule hrule := by simp at hrule
  has _ hhas := hhas
  shut _ hshut := hshut
  summary := ⟨l.summary.globalRules, by simp⟩

/-- One rule. -/
theorem settles_addGlobalRule (h : l.engine.core.ledger.Balanced) (rule : Rule) :
    Settles [rule] l (l.addGlobalRule rule) := by
  rcases addGlobalRule_cases h rule with
    ⟨hhas, heq⟩ | ⟨hshut, hcore, hsummary⟩ | ⟨hpushes, hsummary⟩
  · rw [heq]
    refine ⟨h, ?_, fun _ hhas => hhas, fun _ hshut => hshut,
      ⟨l.summary.globalRules, by simp [hhas]⟩⟩
    simpa using Or.inl hhas
  · refine ⟨?_, ?_, ?_, ?_, ?_⟩
    · rw [hcore]
      exact h
    · rw [hcore]
      simpa using Or.inr hshut
    · rw [hcore]
      exact fun _ hhas => hhas
    · rw [hcore]
      exact fun _ hshut => hshut
    · refine ⟨l.summary.globalRules, ?_⟩
      rw [hsummary, hcore]
      simp [hshut.1]
  · have hhas : (l.addGlobalRule rule).engine.core.ledger.Has rule :=
      hpushes.has_iff.mpr (Or.inr BEq.rfl)
    refine ⟨hpushes.right, ?_, fun _ hold => hpushes.has_iff.mpr (Or.inl hold),
      fun _ hshut => hshut.push hpushes, ?_⟩
    · simpa using Or.inl hhas
    · refine ⟨l.summary.globalRules + 1, ?_⟩
      rw [hsummary]
      simp [hhas]

/-- Rules that come first stay settled while others are added. -/
theorem Settles.append {n : Loading} {rules others : List Rule} (h : Settles rules l m)
    (h' : Settles others m n) : Settles (rules ++ others) l n where
  balanced := h'.balanced
  settled rule hrule := by
    rcases List.mem_append.mp hrule with hfirst | hrest
    · exact (h.settled rule hfirst).imp (h'.has rule) (h'.shut rule)
    · exact h'.settled rule hrest
  has rule hhas := h'.has rule (h.has rule hhas)
  shut rule hshut := h'.shut rule (h.shut rule hshut)
  summary := by
    -- a rule of the first list is active in the end exactly when it was after its own list
    have hcount : rules.countP (fun rule => ¬n.engine.core.ledger.Has rule) =
        rules.countP (fun rule => ¬m.engine.core.ledger.Has rule) := by
      refine List.countP_congr fun rule hrule => ?_
      rcases h.settled rule hrule with hhas | hshut
      · simp [hhas, h'.has rule hhas]
      · simp [hshut.1, (h'.shut rule hshut).1]
    obtain ⟨_, hfirst⟩ := h.summary
    obtain ⟨count, hrest⟩ := h'.summary
    exact ⟨count, by rw [hrest, hfirst, List.countP_append, hcount, Nat.add_assoc]⟩

theorem settles_foldl (h : l.engine.core.ledger.Balanced) (rules : List Rule) :
    Settles rules l (rules.foldl addGlobalRule l) := by
  induction rules generalizing l with
  | nil => exact settles_nil h
  | cons rule rules ih =>
      have hfirst := settles_addGlobalRule h rule
      exact hfirst.append (ih hfirst.balanced)

/-- Rules that are settled change nothing. -/
theorem foldl_addGlobalRule_of_settled (h : l.engine.core.ledger.Balanced) {rules : List Rule}
    (hsettled : ∀ rule ∈ rules, l.engine.core.ledger.Has rule ∨ l.engine.core.ledger.Shut rule) :
    (rules.foldl addGlobalRule l).engine.core = l.engine.core ∧
      (rules.foldl addGlobalRule l).summary.globalRules = l.summary.globalRules := by
  induction rules generalizing l with
  | nil => exact ⟨rfl, rfl⟩
  | cons rule rules ih =>
      obtain ⟨hrule, hrest⟩ := List.forall_mem_cons.mp hsettled
      have hsame : (l.addGlobalRule rule).engine.core = l.engine.core ∧
          (l.addGlobalRule rule).summary.globalRules = l.summary.globalRules := by
        rcases addGlobalRule_cases h rule with
          ⟨_, heq⟩ | ⟨_, hcore, hsummary⟩ | ⟨hpushes, _⟩
        · rw [heq]
          exact ⟨rfl, rfl⟩
        · rw [hsummary]
          exact ⟨hcore, rfl⟩
        · rcases hrule with hhas | hshut
          · exact absurd hhas hpushes.new
          · exact absurd hshut.2 hpushes.room
      obtain ⟨hcore, hglobal⟩ := hsame
      have hlater := ih (l := l.addGlobalRule rule) (by rwa [hcore]) (by rwa [hcore])
      exact ⟨hlater.1.trans hcore, hlater.2.trans hglobal⟩

/-- The count of global rules, replaced. -/
def recount (l : Loading) (count : Nat) : Loading :=
  ⟨l.engine, { l.summary with globalRules := count }⟩

/-- The rules of a scene are added whatever the count of the global ones is. -/
theorem foldl_addRule_recount (l : Loading) (count : Nat) (rules : List Rule) :
    rules.foldl addRule (l.recount count) = (rules.foldl addRule l).recount count := by
  induction rules generalizing l with
  | nil => rfl
  | cons rule rules ih =>
      have hstep : (l.recount count).addRule rule = (l.addRule rule).recount count := by
        simp only [addRule, recount]
        split <;> rfl
      rw [List.foldl_cons, List.foldl_cons, hstep, ih]

end Loading

section Reentry

variable {g : Engine}

theorem Reached.sound_populated (hg : g.Reached) (scene : Scene) :
    (g.populated scene).engine.core.Sound :=
  hg.sound_endScene.leads (Loading.leads_foldl Loading.leads_addEntity (g.opening scene) _)

/-- When the scene comes again, its global rules find the rules that were there after they had
been added the first time. -/
theorem Reached.alike_populated (hg : g.Reached) (scene : Scene) :
    let once := (g.applyScene scene).1
    Ledger.Alike (g.globalLoaded scene).engine.core.ledger
      (once.populated scene).engine.core.ledger := by
  intro once
  have honce : once.Reached := hg.perform (.applyScene scene)
  have hcore := (honce.populates scene).core
  have hconfig : (g.globalLoaded scene).engine.core.config =
      (once.populated scene).engine.core.config :=
    (g.leads_globalLoaded scene).config_eq.trans
      ((g.config_perform (.applyScene scene)).symm.trans (congrArg Core.config hcore).symm)
  have hglobal : (once.populated scene).engine.core.book.global =
      (g.globalLoaded scene).engine.core.book.global := by
    rw [hcore]
    exact g.global_applyScene scene
  have hscene : (once.populated scene).engine.core.book.scene.rules = [] := by
    rw [hcore]
    rfl
  refine alike_of_sound (hg.sound_endScene.leads (g.leads_globalLoaded scene))
    (honce.sound_populated scene) hconfig ?_ ?_
  · rw [hglobal]
    exact List.forall₂_same.mpr fun _ _ => BEq.rfl
  · rw [hscene]
    exact congrArg (List.map (·.rule)) (hg.scene_globalLoaded scene)

/-- When the scene comes again, its global rules change nothing, and as many are dropped. -/
theorem Reached.globalLoaded_again (hg : g.Reached) (scene : Scene) :
    let once := (g.applyScene scene).1
    Ledger.Alike (g.globalLoaded scene).engine.core.ledger
        (once.globalLoaded scene).engine.core.ledger ∧
      (once.globalLoaded scene).engine.rules.global = once.rules.global ∧
      ((g.globalLoaded scene).recount 0).summary = (once.globalLoaded scene).summary := by
  intro once
  have honce : once.Reached := hg.perform (.applyScene scene)
  have hconfig : once.config = g.config := g.config_perform (.applyScene scene)
  have hpopulates := hg.populates scene
  have hpopulates' := honce.populates scene
  have halike := hg.alike_populated scene
  have hfirst : Loading.Settles scene.globalRules (g.populated scene) (g.globalLoaded scene) :=
    Loading.settles_foldl (hg.sound_populated scene).balanced scene.globalRules
  have hsecond : Loading.Settles scene.globalRules (once.populated scene)
      (once.globalLoaded scene) :=
    Loading.settles_foldl (honce.sound_populated scene).balanced scene.globalRules
  -- what was settled the first time is settled before the second
  have hsettled : ∀ rule ∈ scene.globalRules,
      (once.populated scene).engine.core.ledger.Has rule ∨
        (once.populated scene).engine.core.ledger.Shut rule := fun rule hrule =>
    (hfirst.settled rule hrule).imp halike.has_iff.mp halike.shut_iff.mp
  obtain ⟨hcore, hcount⟩ := Loading.foldl_addGlobalRule_of_settled
    (honce.sound_populated scene).balanced hsettled
  change (once.globalLoaded scene).engine.core = (once.populated scene).engine.core at hcore
  refine ⟨?_, ?_, ?_⟩
  · rw [hcore]
    exact halike
  · have hbook := congrArg (fun c => c.book.global) (hcore.trans hpopulates'.core)
    exact hbook
  · have hdropped : scene.globalRules.countP
          (fun rule => ¬(g.globalLoaded scene).engine.core.ledger.Has rule) =
        scene.globalRules.countP
          (fun rule => ¬(once.globalLoaded scene).engine.core.ledger.Has rule) := by
      refine List.countP_congr fun rule _ => ?_
      rw [hcore, decide_eq_true_iff, decide_eq_true_iff, halike.has_iff]
    have hpopulated : (g.populated scene).summary = (once.populated scene).summary := by
      rw [hpopulates.summary, hpopulates'.summary, hconfig]
      rfl
    obtain ⟨_, hsummary⟩ := hfirst.summary
    obtain ⟨count, hsummary'⟩ := hsecond.summary
    have hnone : count = 0 := by
      have hzero : (once.populated scene).summary.globalRules = 0 := by
        rw [hpopulates'.summary]
        rfl
      rw [← hzero, ← hcount]
      exact (congrArg SceneSummary.globalRules hsummary').symm
    rw [Loading.recount, hsummary, hsummary', ← hdropped, ← hpopulated, hnone]

/-- **A scene applied twice.**  After any run, applying a scene a second time leaves the same
global rules, in the same slots under the same handles, the same rules of the scene in the same
order and the same document at every slot as applying it once, whatever was dropped the first
time.  The second time brings no global rule, and otherwise as many entities and rules as the
first; it drops as many. -/
theorem applyScene_applyScene (g : Engine) (hg : g.Reached) (scene : Scene) :
    let once := (g.applyScene scene).1
    let twice := (once.applyScene scene).1
    twice.rules.global = once.rules.global ∧
    twice.rules.scene.rules.map (·.rule) = once.rules.scene.rules.map (·.rule) ∧
    (∀ e, twice.document? e = once.document? e) ∧
    (once.applyScene scene).2 = { (g.applyScene scene).2 with globalRules := 0 } := by
  intro once twice
  have honce : once.Reached := hg.perform (.applyScene scene)
  have hconfig : once.config = g.config := g.config_perform (.applyScene scene)
  obtain ⟨hrules, hsame, hcount⟩ := hg.globalLoaded_again scene
  have hstart : Loading.Alike ((g.globalLoaded scene).recount 0) (once.globalLoaded scene) :=
    ⟨hrules, hcount⟩
  have hend := hstart.foldl (fun _ _ rule h => h.addRule rule) scene.rules
  rw [Loading.foldl_addRule_recount] at hend
  refine ⟨?_, hend.ledger.scene.symm, fun e => ?_, hend.summary.symm⟩
  · exact (once.global_applyScene scene).trans hsame
  · by_cases he : e < once.config.globalEntities.toNat
    · exact Document.read?_congr (honce.slot_applyScene scene he)
    · exact document?_applyScene_congr honce hg hconfig scene (Nat.le_of_not_lt he)

/-- A scene with two global rules, of which there is room for one, and two rules of its own. -/
def greedyScene : Scene :=
  ⟨"greedy", [.obj [("id", .str "a")]], [Ledger.tagRule "lamp", Ledger.tagRule "key"],
    [Ledger.tagRule "door", Ledger.tagRule "key"], []⟩

theorem applyScene_applyScene_greedyScene :
    let g := new smallConfig .standard
    let once := (g.applyScene greedyScene).1
    (g.applyScene greedyScene).2 = ⟨1, 1, 1, 2⟩ ∧
    (once.applyScene greedyScene).2 = ⟨1, 1, 0, 2⟩ ∧
    (once.applyScene greedyScene).1.document? 1 = once.document? 1 := by
  intro g once
  obtain ⟨_, _, hdocuments, hsummary⟩ :=
    applyScene_applyScene g (Reached.new smallConfig .standard) greedyScene
  have hfirst : (g.applyScene greedyScene).2 = ⟨1, 1, 1, 2⟩ := by decide +kernel
  exact ⟨hfirst, hsummary.trans (by rw [hfirst]), hdocuments 1⟩

end Reentry
end Engine
end EntityRules
