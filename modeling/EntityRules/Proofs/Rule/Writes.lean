import EntityRules.Proofs.Document.Effect
import EntityRules.Proofs.Entity.Pools
import EntityRules.Rule.Pass

/-!
# The documents that a pass writes

A pass changes entities in two ways only: it ends them, and it writes documents to them.  The
documents are collected here in the order in which they are written.  A property of components
that all of them respect is kept by the pass.

**Results.**
* `PassRelation.runRule`, `PassRelation.runRules`: a relation that both changes respect.
* `everywhere_mutate`, `everywhere_runRule`: one entity, one rule.
* `Driver.everywhere_run`: a pass.
-/

namespace EntityRules

section Folds

variable {α β σ : Type} {step : σ → α → σ} {out : σ → α → List β}

/-- What the steps of a fold bring up, in order. -/
def outputs (step : σ → α → σ) (out : σ → α → List β) (s : σ) : List α → List β
  | [] => []
  | a :: l => out s a ++ outputs step out (step s a) l

/-- What each step keeps whose outputs are good, a fold keeps all of whose outputs are good. -/
theorem foldl_keeps {I : σ → Prop} {P : β → Prop} {l : List α}
    (hstep : ∀ s, ∀ a ∈ l, I s → (∀ b ∈ out s a, P b) → I (step s a)) {s : σ} (h : I s)
    (hgood : ∀ b ∈ outputs step out s l, P b) : I (l.foldl step s) := by
  induction l generalizing s with
  | nil => exact h
  | cons a l ih =>
      obtain ⟨hhead, htail⟩ := List.forall_mem_append.mp hgood
      have hnext := hstep s a List.mem_cons_self h hhead
      exact ih (fun s b hb => hstep s b (List.mem_cons_of_mem a hb)) hnext htail

end Folds

section Stores

variable {I : (c : Component) → c.Value → Prop} {s : Store}

theorem Store.Everywhere.deactivate (h : s.Everywhere I) (e : Nat) :
    (s.deactivate e).1.Everywhere I := by
  refine h.of_slots fun i hactive => ?_
  rw [Store.isActive, Store.slot_deactivate] at hactive
  rw [Store.slot_deactivate]
  split
  · next hended =>
      rw [if_pos hended] at hactive
      cases hactive
  · rfl

end Stores

/-! ## The store of a pass -/

namespace Pass

variable {p : Pass}

section Stores

theorem store_skipOrFail (p : Pass) (e : Failure) : (p.skipOrFail e).store = p.store := by
  cases e <;> rfl

theorem store_filter (p : Pass) (r : Registry) (active : ActiveRule) :
    (p.filter r active).1.store = p.store := by
  simp only [Pass.filter]
  split
  · simp only [filterOver]
    split <;> rfl
  · rfl

theorem store_targets (p : Pass) (survivors : List Json) :
    (p.targets survivors).1.store = p.store := by
  induction survivors generalizing p with
  | nil => rfl
  | cons survivor survivors ih =>
      cases survivor with
      | null => exact ih p
      | bool | num | str | arr | obj =>
          simp only [Pass.targets]
          split
          · exact ih p
          · exact (ih _).trans (p.store_skipOrFail _)

end Stores

section Rules

variable {r : Registry} {active : ActiveRule} {q : Pass}

/-- Counts a rule that runs. -/
def countRun (p : Pass) : Pass :=
  { p with report := { p.report with rulesRun := p.report.rulesRun + 1 } }

theorem runRule_of_error {e : Failure} (h : p.filter r active = (q, .error e)) :
    runRule r p active =
      { q.fail e with report := { q.report with rulesSkipped := q.report.rulesSkipped + 1 } } := by
  rw [runRule, h]

theorem runRule_of_ok {survivors : List Json} (h : p.filter r active = (q, .ok survivors)) :
    runRule r p active =
      (q.countRun.targets survivors).1.execute active.rule survivors
        (q.countRun.targets survivors).2 := by
  rw [runRule, h]
  rfl

end Rules

end Pass

/-! ## Relations of stores -/

/-- A relation of stores that holds of a store and what it becomes when an entity ends or when a
document is written. -/
structure PassRelation (R : Store → Store → Prop) : Prop where
  refl : ∀ s, R s s
  trans : ∀ {s t u}, R s t → R t u → R s u
  deactivate : ∀ s e, R s (s.deactivate e).1
  write : ∀ {document e s o}, Document.write document e s = .ok o → R s o.store

namespace PassRelation

variable {R : Store → Store → Prop} (h : PassRelation R) (p : Pass)
include h

theorem foldl {α : Type} {f : Pass → α → Pass} (hf : ∀ p a, R p.store (f p a).store) (l : List α) :
    R p.store (l.foldl f p).store := by
  induction l generalizing p with
  | nil => exact h.refl p.store
  | cons a l ih => exact h.trans (hf p a) (ih (f p a))

theorem passDeactivate (e : Nat) : R p.store (p.deactivate e).store := by
  have hends := h.deactivate p.store e
  simp only [Pass.deactivate]
  split
  · next heq =>
      rw [heq] at hends
      exact hends
  · exact h.refl p.store

theorem writeBack {s : Store} (hs : p.store = s) (document : Json) (roots : List String)
    (e : Nat) : R s (p.writeBack document roots e).store := by
  subst hs
  simp only [Pass.writeBack]
  split
  · next o hwrite => exact h.write hwrite
  · rw [Pass.store_skipOrFail]
    exact h.refl p.store

theorem mutate (label : String) (operations : List Operation) (roots : List String) (e : Nat) :
    R p.store (p.mutate label operations roots e).store := by
  simp only [Pass.mutate]
  split
  · exact h.refl p.store
  · split
    · refine h.writeBack _ ?_ _ roots _
      rfl
    · rw [Pass.store_skipOrFail]
      exact h.refl p.store

theorem execute (rule : Rule) (survivors : List Json) (entities : List Nat) :
    R p.store (p.execute rule survivors entities).store := by
  cases hcommand : rule.command with
  | deactivate =>
      simp only [Pass.execute, hcommand]
      exact h.foldl p h.passDeactivate entities
  | loadScene path =>
      simp only [Pass.execute, hcommand]
      split <;> exact h.refl p.store
  | mutate operations =>
      simp only [Pass.execute, hcommand]
      exact h.foldl (p.setSurvivors survivors)
        (fun p e => h.mutate p rule.label operations _ e) entities

theorem runRule (r : Registry) (active : ActiveRule) :
    R p.store (Pass.runRule r p active).store := by
  have hfilter := p.store_filter r active
  cases hresult : p.filter r active with
  | mk q result =>
      rw [hresult] at hfilter
      rw [← hfilter]
      cases result with
      | error e =>
          rw [Pass.runRule_of_error hresult]
          exact h.refl q.store
      | ok survivors =>
          have hexecute := h.execute (q.countRun.targets survivors).1 active.rule survivors
            (q.countRun.targets survivors).2
          rw [Pass.store_targets] at hexecute
          rw [Pass.runRule_of_ok hresult]
          exact hexecute

theorem runRules (r : Registry) (rules : List ActiveRule) :
    R p.store (rules.foldl (Pass.runRule r) p).store :=
  h.foldl p (fun p active => h.runRule p r active) rules

end PassRelation

/-! ## One rule -/

namespace Pass

variable {I : (c : Component) → c.Value → Prop} {p : Pass}

section Rules

/-- What a mutation writes back to an entity, unless the entity is gone. -/
def patch? (p : Pass) (label : String) (operations : List Operation) (roots : List String)
    (e : Nat) : Option Json :=
  match p.driver.take p.store e with
  | (_, none) => none
  | (driver, some document) =>
    let scope := Assoc.insert Mutation.selfKey document driver.mutationScope
    let o := Mutation.run driver.table label operations (.obj scope)
    some (patchOf ((o.context.get? Mutation.selfKey).getD .null) roots)

/-- What a command writes to entities. -/
def patches (p : Pass) (rule : Rule) (survivors : List Json) (entities : List Nat) : List Json :=
  match rule.command with
  | .deactivate | .loadScene _ => []
  | .mutate operations =>
    outputs (fun p e => p.mutate rule.label operations rule.command.changedFields e)
      (fun p e => (p.patch? rule.label operations rule.command.changedFields e).toList)
      (p.setSurvivors survivors) entities

/-- What a rule writes. -/
def written (r : Registry) (p : Pass) (active : ActiveRule) : List Json :=
  match p.filter r active with
  | (_, .error _) => []
  | (p, .ok survivors) =>
    let p := { p with report := { p.report with rulesRun := p.report.rulesRun + 1 } }
    let (p, entities) := p.targets survivors
    p.patches active.rule survivors entities

theorem everywhere_writeBack (h : p.store.Everywhere I) {document : Json} {roots : List String}
    (hgood : Document.Respects I (patchOf document roots)) (e : Nat) :
    (p.writeBack document roots e).store.Everywhere I := by
  simp only [writeBack]
  split
  · next o hwrite => exact Document.everywhere_write hgood hwrite h
  · rw [store_skipOrFail]
    exact h

theorem everywhere_mutate (h : p.store.Everywhere I) {label : String}
    {operations : List Operation} {roots : List String} {e : Nat}
    (hgood : ∀ document ∈ (p.patch? label operations roots e).toList,
      Document.Respects I document) :
    (p.mutate label operations roots e).store.Everywhere I := by
  cases htake : p.driver.take p.store e with
  | mk driver taken =>
      cases taken with
      | none =>
          simp only [mutate, htake]
          exact h
      | some document =>
          simp only [patch?, htake, Option.toList_some, List.mem_singleton, forall_eq] at hgood
          simp only [mutate, htake]
          -- what the operations leave matters only as a document that is written
          generalize Mutation.run driver.table label operations _ = o at hgood ⊢
          generalize (o.context.get? Mutation.selfKey).getD .null = document' at hgood ⊢
          split
          · refine everywhere_writeBack ?_ hgood _
            exact h
          · rw [store_skipOrFail]
            exact h

theorem everywhere_deactivate (h : p.store.Everywhere I) (e : Nat) :
    (p.deactivate e).store.Everywhere I := by
  have hends := h.deactivate e
  simp only [deactivate]
  split
  · next heq =>
      rw [heq] at hends
      exact hends
  · exact h

theorem everywhere_execute (h : p.store.Everywhere I) {rule : Rule} {survivors : List Json}
    {entities : List Nat}
    (hgood : ∀ document ∈ p.patches rule survivors entities, Document.Respects I document) :
    (p.execute rule survivors entities).store.Everywhere I := by
  cases hcommand : rule.command with
  | deactivate =>
      simp only [execute, hcommand]
      exact List.foldlRecOn entities deactivate (motive := fun p => p.store.Everywhere I) h
        fun p hp e _ => everywhere_deactivate hp e
  | loadScene path =>
      simp only [execute, hcommand]
      split <;> exact h
  | mutate operations =>
      simp only [patches, hcommand] at hgood
      simp only [execute, hcommand]
      exact foldl_keeps (I := fun p : Pass => p.store.Everywhere I)
        (fun p e _ hp hout => everywhere_mutate hp hout) (s := p.setSurvivors survivors) h hgood

/-- A rule keeps a property of components that all it writes respects. -/
theorem everywhere_runRule {r : Registry} {active : ActiveRule} (h : p.store.Everywhere I)
    (hgood : ∀ document ∈ written r p active, Document.Respects I document) :
    (runRule r p active).store.Everywhere I := by
  have hfilter := p.store_filter r active
  simp only [written] at hgood
  simp only [runRule]
  split
  · next q e hresult =>
      rw [hresult] at hfilter
      change q.store.Everywhere I
      rw [hfilter]
      exact h
  · next q survivors hresult =>
      rw [hresult] at hfilter hgood
      have htargets := store_targets
        { q with report := { q.report with rulesRun := q.report.rulesRun + 1 } } survivors
      refine everywhere_execute ?_ hgood
      rw [htargets]
      change q.store.Everywhere I
      rw [hfilter]
      exact h

end Rules

end Pass

/-! ## Passes -/

namespace Driver

/-- What a pass writes. -/
def written (d : Driver) (deltaTime : Float) (b : RuleBook) (r : Registry) (s : Store)
    (diagnostics : Diagnostics) : List Json :=
  outputs (Pass.runRule r) (Pass.written r)
    ⟨d.begin s.capacity deltaTime, s, diagnostics, {}⟩ b.toList

/-- A pass keeps a property of components that all it writes respects. -/
theorem everywhere_run {I : (c : Component) → c.Value → Prop} {d : Driver} {deltaTime : Float}
    {b : RuleBook} {r : Registry} {s : Store} {diagnostics : Diagnostics} (h : s.Everywhere I)
    (hgood : ∀ document ∈ d.written deltaTime b r s diagnostics, Document.Respects I document) :
    (d.run deltaTime b r s diagnostics).store.Everywhere I :=
  foldl_keeps (I := fun p : Pass => p.store.Everywhere I)
    (fun _ _ _ hp hout => Pass.everywhere_runRule hp hout) h hgood

end Driver
end EntityRules
