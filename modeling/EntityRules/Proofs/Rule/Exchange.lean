import EntityRules.Proofs.Rule.Footprint

/-!
# Two rules in the other order

If no entity is in the sets of two neighbouring rules, the survivors of each name only entities of
its own set, and neither aims at the numbers of entities, then each works within its own set.  It
does not matter which of them runs first, but for the order of the failures and for the scene that
is requested.  All rules after them come to the same store, so they do the same.

**Results.**
* `rearranges_exchange`: two parts of a pass that work within disjoint sets.
* `Rearranges.runRule`, `Rearranges.runRules`: the rules after them.
* `Driver.run_exchange`: the pass with two rules exchanged.
-/

namespace EntityRules

/-! ## Reports -/

/-- A report without the request for a scene. -/
def Report.counts (a : Report) : Report := { a with sceneRequest := none }

theorem Report.counts_plus (a b : Report) : (a.plus b).counts = a.counts.plus b.counts := rfl

theorem Report.counts_plus_comm (a b c : Report) :
    ((a.plus b).plus c).counts = ((a.plus c).plus b).counts := by
  simp only [counts, plus, Nat.add_right_comm]

/-! ## States of a pass -/

namespace Plain

open Store (AlikeOn Within)

variable {M N : Nat → Prop} {p q : Plain} {f g : Plain → Plain} {x y : Effect}

/-- Two states of a pass that differ at most in the order of the failures and in the scene that is
requested. -/
structure Rearranges (p q : Plain) : Prop where
  store : q.store = p.store
  report : q.report.counts = p.report.counts
  failures : q.failures.Perm p.failures

theorem Rearranges.apply (h : Rearranges p q) (x : Effect) :
    Rearranges (x.apply p) (x.apply q) where
  store := by simp only [Effect.apply, h.store]
  report := by simp only [Effect.apply, Report.counts_plus, h.report]
  failures := h.failures.append_right x.failures

/-- Effects on disjoint sets of entities. -/
theorem rearranges_apply (hdisjoint : ∀ e, M e → ¬N e) (hx : Within M x.actions)
    (hy : Within N y.actions) (p : Plain) :
    Rearranges (y.apply (x.apply p)) (x.apply (y.apply p)) where
  store := (Store.performAll_comm hdisjoint hx hy p.store).symm
  report := Report.counts_plus_comm p.report y.report x.report
  failures := by
    simp only [Effect.apply, List.append_assoc]
    exact List.perm_append_comm.append_left p.failures

/-- Two parts of a pass that work within disjoint sets of entities. -/
theorem rearranges_exchange (hdisjoint : ∀ e, M e → ¬N e) (hf : ConfinedAt M p.store f)
    (hg : ConfinedAt N (f p).store g) : Rearranges (g (f p)) (f (g p)) := by
  obtain ⟨x, hx, hfirst⟩ := hf
  obtain ⟨y, hy, hsecond⟩ := hg
  -- neither part touches what the other one reads, so both have their effects in either order
  have hfp : f p = x.apply p := hfirst p (.refl M p.store)
  have hafter : AlikeOn N p.store (f p).store := by
    rw [hfp]
    exact Store.alikeOn_performAll (fun e he hm => hdisjoint e hm he) hx p.store
  have hgp : g p = y.apply p := hsecond p hafter.symm
  have hbefore : AlikeOn M p.store (g p).store := by
    rw [hgp]
    exact Store.alikeOn_performAll hdisjoint hy p.store
  rw [hsecond (f p) (.refl N _), hfp, hfirst (g p) hbefore, hgp]
  exact rearranges_apply hdisjoint hx hy p

/-- A rule that comes to the same store does the same. -/
theorem Rearranges.runRule (h : Rearranges p q) (table : Expr.Operators) (time : Json)
    (r : Registry) (active : ActiveRule) :
    Rearranges (p.runRule table time r active) (q.runRule table time r active) := by
  obtain ⟨x, -, heffect⟩ : ConfinedAt (fun _ => True) p.store
      fun p => p.runRule table time r active :=
    confinedAt_runRule (.inl fun _ => trivial) (fun _ _ => trivial) fun _ _ _ _ _ _ => trivial
  have hstore : AlikeOn (fun _ => True) p.store q.store := by
    rw [h.store]
    exact .refl _ p.store
  have hp : p.runRule table time r active = x.apply p := heffect p (.refl _ p.store)
  have hq : q.runRule table time r active = x.apply q := heffect q hstore
  rw [hp, hq]
  exact h.apply x

theorem Rearranges.runRules (h : Rearranges p q) (table : Expr.Operators) (time : Json)
    (r : Registry) (rules : List ActiveRule) :
    Rearranges (rules.foldl (Plain.runRule table time r) p)
      (rules.foldl (Plain.runRule table time r) q) := by
  induction rules generalizing p q with
  | nil => exact h
  | cons active rules ih => exact ih (h.runRule table time r active)

/-- Two rules that work within disjoint sets of entities, exchanged. -/
theorem rearranges_run {table : Expr.Operators} {deltaTime : Float} {r : Registry} {s : Store}
    {b b' : RuleBook} {before after : List ActiveRule} {first second : ActiveRule}
    (hb : b.toList = before ++ first :: second :: after)
    (hb' : b'.toList = before ++ second :: first :: after) (hdisjoint : ∀ e, M e → ¬N e)
    (hfirst : ConfinedAt M (before.foldl (runRule table (timeOf deltaTime) r) { store := s }).store
      fun q => q.runRule table (timeOf deltaTime) r first)
    (hsecond : ConfinedAt N
      ((before ++ [first]).foldl (runRule table (timeOf deltaTime) r) { store := s }).store
      fun q => q.runRule table (timeOf deltaTime) r second) :
    Rearranges (run table deltaTime b r s) (run table deltaTime b' r s) := by
  rw [List.foldl_append] at hsecond
  rw [run, run, hb, hb', List.foldl_append, List.foldl_append]
  exact (rearranges_exchange hdisjoint hfirst hsecond).runRules table (timeOf deltaTime) r after

end Plain

/-! ## Passes -/

namespace RuleBook

/-- The rules that run before those of a partition. -/
def ahead (b : RuleBook) : Partition → List ActiveRule
  | .global => []
  | .scene => b.global.rules

/-- The rules that run after those of a partition. -/
def behind (b : RuleBook) : Partition → List ActiveRule
  | .global => b.scene.rules
  | .scene => []

theorem toList_eq (b : RuleBook) (partition : Partition) :
    b.toList = b.ahead partition ++ (b.bucket partition).rules ++ b.behind partition := by
  cases partition with
  | global => rfl
  | scene => exact (List.append_nil _).symm

theorem toList_setBucket (b : RuleBook) (partition : Partition) (rules : Bucket) :
    (b.setBucket partition rules).toList =
      b.ahead partition ++ rules.rules ++ b.behind partition := by
  cases partition with
  | global => rfl
  | scene => exact (List.append_nil _).symm

end RuleBook

/-- The survivors of a rule, apart from null, name entities in the set of its selector. -/
def Pass.NamesOwn (p : Pass) (r : Registry) (active : ActiveRule) : Prop :=
  ∀ survivors, (p.filter r active).2 = .ok survivors → ∀ survivor ∈ survivors,
    survivor ≠ .null → ∃ e, r.Matches active e ∧ Document.indexOf survivor = .ok e

/-- Whether the survivors of a rule name entities in its set can be computed. -/
theorem Pass.namesOwn_of_all {p : Pass} {r : Registry} {active : ActiveRule} {members : List Nat}
    (hmembers : (r.found? active.selector).map EntitySet.members = some members)
    (h : ((p.filter r active).2.toOption.getD []).all (fun survivor =>
      members.any fun e => (Document.indexOf survivor).toOption == some e) = true) :
    p.NamesOwn r active := by
  intro survivors hsurvivors survivor hmem hnull
  rw [hsurvivors] at h
  obtain ⟨e, he, hindex⟩ := List.any_eq_true.mp (List.all_eq_true.mp h survivor hmem)
  refine ⟨e, (Registry.matches_iff hmembers).mpr he, ?_⟩
  cases hnamed : Document.indexOf survivor with
  | error fault => simp [hnamed, Except.toOption] at hindex
  | ok i => simpa [hnamed, Except.toOption] using hindex

/-- A rule whose survivors name entities in its set works within the set. -/
theorem Pass.Agrees.confinedAt_runRule {table : Expr.Operators} {time : Json}
    {before : Diagnostics} {p : Pass} {q : Plain} (h : Agrees table time [] before p q)
    {r : Registry} {active : ActiveRule} (hkeeps : active.rule.KeepsIndex)
    (hnames : p.NamesOwn r active) :
    Plain.ConfinedAt (r.Matches active) q.store fun q => q.runRule table time r active := by
  refine Plain.confinedAt_runRule (.inr hkeeps) (fun e he => he) fun l hl survivor hmem e he => ?_
  have hfilter := (h.filter r active).2.trans hl
  have hnull : survivor ≠ .null := by
    rintro rfl
    cases he
  obtain ⟨i, hi, hindex⟩ := hnames l hfilter survivor hmem hnull
  exact Except.ok.inj (hindex.symm.trans he) ▸ hi

namespace Driver

variable {table : Expr.Operators} {d : Driver}

/-- The state of a pass after some rules. -/
def passAfter (d : Driver) (deltaTime : Float) (r : Registry) (s : Store)
    (diagnostics : Diagnostics) (rules : List ActiveRule) : Pass :=
  rules.foldl (Pass.runRule r) ⟨d.begin s.capacity deltaTime, s, diagnostics, {}⟩

/-- **Two rules exchanged.**  Take two neighbouring rules of a partition, such that no entity is in
the sets of both selectors, neither rule aims at the numbers of entities, and the survivors of
each, apart from null, name entities in its own set when the pass comes to it.  With the two rules
in the other order the pass leaves the same store and counts the same, and reports the same
failures in some order: they are counted alike by kind, and the same are kept while there is room
for all. -/
theorem run_exchange (hd : Used table d) (deltaTime : Float) (b : RuleBook) (r : Registry)
    (s : Store) (diagnostics : Diagnostics) (partition : Partition)
    {earlier later : List ActiveRule} {first second : ActiveRule}
    (hrules : (b.bucket partition).rules = earlier ++ first :: second :: later)
    (hdisjoint : ∀ e, r.Matches first e → ¬r.Matches second e)
    (hkeepsFirst : first.rule.KeepsIndex) (hkeepsSecond : second.rule.KeepsIndex)
    (hfirst : (d.passAfter deltaTime r s diagnostics
      (b.ahead partition ++ earlier)).NamesOwn r first)
    (hsecond : (d.passAfter deltaTime r s diagnostics
      (b.ahead partition ++ earlier ++ [first])).NamesOwn r second) :
    let b' := b.setBucket partition
      { b.bucket partition with rules := earlier ++ second :: first :: later }
    let plain := Plain.run table deltaTime b r s
    let plain' := Plain.run table deltaTime b' r s
    let done := d.run deltaTime b r s diagnostics
    let done' := d.run deltaTime b' r s diagnostics
    done'.store = done.store ∧ done'.report.counts = done.report.counts ∧
    done.diagnostics = diagnostics.reportAll plain.failures ∧
    done'.diagnostics = diagnostics.reportAll plain'.failures ∧
    plain'.failures.Perm plain.failures ∧
    done'.diagnostics.counts = done.diagnostics.counts ∧
    (diagnostics.history.length + plain.failures.length ≤ diagnostics.limit →
      done'.diagnostics.history.Perm done.diagnostics.history) := by
  intro b' plain plain' done done'
  obtain ⟨time, t, hready⟩ := hd.ready
  have hagrees (rules : List ActiveRule) : Pass.Agrees table (Plain.timeOf deltaTime) []
      diagnostics (d.passAfter deltaTime r s diagnostics rules)
      (rules.foldl (Plain.runRule table (Plain.timeOf deltaTime) r) { store := s }) :=
    Pass.Agrees.runRules ⟨hready.begin s.capacity deltaTime s, rfl, rfl, rfl⟩ r rules
  have hb : b.toList =
      (b.ahead partition ++ earlier) ++ first :: second :: (later ++ b.behind partition) := by
    rw [b.toList_eq partition, hrules]
    simp only [List.append_assoc, List.cons_append]
  have hb' : b'.toList =
      (b.ahead partition ++ earlier) ++ second :: first :: (later ++ b.behind partition) := by
    rw [b.toList_setBucket partition]
    simp only [List.append_assoc, List.cons_append]
  have hrearranges : plain.Rearranges plain' :=
    Plain.rearranges_run hb hb' hdisjoint
      ((hagrees _).confinedAt_runRule hkeepsFirst hfirst)
      ((hagrees _).confinedAt_runRule hkeepsSecond hsecond)
  have hdone := hready.agrees_run deltaTime b r s diagnostics
  have hdone' := hready.agrees_run deltaTime b' r s diagnostics
  obtain ⟨hcounts, hkept⟩ := Diagnostics.reportAll_perm hrearranges.failures diagnostics
  rw [← hdone.diagnostics, ← hdone'.diagnostics] at hcounts hkept
  refine ⟨?_, ?_, hdone.diagnostics, hdone'.diagnostics, hrearranges.failures, hcounts, hkept⟩
  · exact hdone'.store.trans (hrearranges.store.trans hdone.store.symm)
  · exact (congrArg Report.counts hdone'.report).trans
      (hrearranges.report.trans (congrArg Report.counts hdone.report).symm)

/-- The chest and an entity with the tag `key`. -/
def keyStore : Store := ((chestStore.activate .scene).1.insert .tags 2 (.ofList ["key"])).1

/-- The selectors of the two tags. -/
def keySelectors : Registry :=
  (((Registry.new 2 3).track (.atom (.tag "door"))).1.track (.atom (.tag "key"))).1.recalculate
    keyStore

/-- A rule that ends the entities of the second tag. -/
def keyRule : ActiveRule :=
  ⟨⟨"take", .atom (.tag "key"), RuleDefinition.keepAll, .deactivate⟩, 1⟩

/-- A rule with an operation that fails, before one that ends an entity. -/
def keyRules : RuleBook := ⟨.new 0, ⟨[chestRule, keyRule], 2, 0⟩⟩

theorem run_exchange_keyRules :
    let b' := keyRules.setBucket .scene { keyRules.scene with rules := [keyRule, chestRule] }
    let done := doorDriver.run 0 keyRules keySelectors keyStore {}
    let done' := doorDriver.run 0 b' keySelectors keyStore {}
    done'.store = done.store ∧
    done'.report.counts = { rulesRun := 2, entitiesWritten := 1, entitiesDeactivated := 1 } ∧
    done'.diagnostics.history.Perm done.diagnostics.history := by
  intro b' done done'
  have hused : Used .standard doorDriver := .run _ _ _ _ _ (.new 3)
  have hdoor : (keySelectors.found? chestRule.selector).map EntitySet.members = some [1] := by
    decide +kernel
  have hkey : (keySelectors.found? keyRule.selector).map EntitySet.members = some [2] := by
    decide +kernel
  have hdisjoint : ∀ e, keySelectors.Matches chestRule e → ¬keySelectors.Matches keyRule e := by
    intro e he he'
    rw [Registry.matches_iff hdoor, List.mem_singleton] at he
    rw [Registry.matches_iff hkey, List.mem_singleton] at he'
    omega
  have hkeepsDoor : chestRule.rule.KeepsIndex := by
    intro operations hcommand
    obtain rfl := Command.mutate.inj hcommand
    exact openChest_targets (by decide) (by decide)
  have hkeepsKey : keyRule.rule.KeepsIndex := by
    intro operations hcommand
    cases hcommand
  have hrules : (keyRules.bucket .scene).rules = [] ++ chestRule :: keyRule :: [] := rfl
  obtain ⟨hstore, hreport, -, -, -, -, hkept⟩ :=
    run_exchange hused 0 keyRules keySelectors keyStore {} .scene hrules hdisjoint hkeepsDoor
      hkeepsKey (Pass.namesOwn_of_all hdoor (by decide +kernel))
      (Pass.namesOwn_of_all hkey (by decide +kernel))
  obtain ⟨time, t, hready⟩ := hused.ready
  have hplain := (hready.agrees_run 0 keyRules keySelectors keyStore {}).report
  refine ⟨hstore, hreport.trans ?_, hkept (by decide +kernel)⟩
  rw [hplain]
  decide +kernel

end Driver
end EntityRules
