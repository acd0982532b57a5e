import EntityRules.Proofs.Document.Edits
import EntityRules.Proofs.Entity.Locality
import EntityRules.Proofs.Rule.Untouched

/-!
# The footprint of a rule

A rule reads the documents in the set of its selector, the slots that its survivors name, and the
slots that it changes.  What it does is an effect: operations on entities, counts and failures.  If
all these entities have a property, then the effect is the same for all stores that are alike on
the entities with the property, whatever the rest of the store, the counts and the failures so far.

**Results.**
* `Confined.foldl`, `ConfinedAt.andThen`: parts of a pass one after another.
* `confined_deactivate`, `confined_write`, `confined_mutate`: what is done to one entity.
* `confinedAt_runRule`: a rule.
-/

namespace EntityRules

/-- An edit of an entity is an operation on it. -/
theorem StoreAction.Edits.at {e : Nat} {a : StoreAction} (h : a.Edits e) : a.At e := by
  cases a with
  | insert | modify | remove | getOrInsert => exact h
  | activate | deactivate | resetScene => exact h.elim

/-! ## Effects -/

/-- The counts of two reports together; of two requests for a scene the later one stands. -/
def Report.plus (a b : Report) : Report where
  rulesRun := a.rulesRun + b.rulesRun
  rulesSkipped := a.rulesSkipped + b.rulesSkipped
  entitiesWritten := a.entitiesWritten + b.entitiesWritten
  entitiesDeactivated := a.entitiesDeactivated + b.entitiesDeactivated
  staleSkips := a.staleSkips + b.staleSkips
  sceneRequest := b.sceneRequest.or a.sceneRequest

theorem Report.plus_assoc (a b c : Report) : (a.plus b).plus c = a.plus (b.plus c) := by
  simp only [plus, Nat.add_assoc, Option.or_assoc]

/-- What a part of a pass does to the state of the pass. -/
structure Effect where
  actions : List StoreAction := []
  report : Report := {}
  failures : List Failure := []

namespace Effect

/-- The state of a pass after an effect. -/
def apply (x : Effect) (p : Plain) : Plain where
  store := x.actions.foldl Store.perform p.store
  report := p.report.plus x.report
  failures := p.failures ++ x.failures

/-- One effect after another. -/
def andThen (x y : Effect) : Effect :=
  ⟨x.actions ++ y.actions, x.report.plus y.report, x.failures ++ y.failures⟩

theorem apply_andThen (x y : Effect) (p : Plain) :
    (x.andThen y).apply p = y.apply (x.apply p) := by
  simp only [apply, andThen, List.foldl_append, Report.plus_assoc, List.append_assoc]

end Effect

/-- The entities in the set of the selector of a rule. -/
def Registry.Matches (r : Registry) (active : ActiveRule) (e : Nat) : Prop :=
  ∃ found, r.found? active.selector = some found ∧ e ∈ found.members

theorem Registry.matches_iff {r : Registry} {active : ActiveRule} {members : List Nat}
    (h : (r.found? active.selector).map EntitySet.members = some members) {e : Nat} :
    r.Matches active e ↔ e ∈ members := by
  obtain ⟨found, hfound, rfl⟩ := Option.map_eq_some_iff.mp h
  refine ⟨?_, fun he => ⟨found, hfound, he⟩⟩
  rintro ⟨other, hother, he⟩
  obtain rfl := Option.some.inj (hfound.symm.trans hother)
  exact he

/-- The operations of a rule, if it has any, do not aim at the numbers of entities. -/
def Rule.KeepsIndex (rule : Rule) : Prop :=
  ∀ operations, rule.command = .mutate operations →
    ∀ op ∈ operations, ∀ t, op.target = .ok t → t.root ≠ "_index"

namespace Plain

open Store (AlikeOn Within)

/-! ## Parts of a pass -/

section Parts

variable {M : Nat → Prop} {s : Store} {f g : Plain → Plain}

/-- From a store on, a part of a pass has one effect for all stores that are alike on some
entities, by operations on these entities. -/
def ConfinedAt (M : Nat → Prop) (s : Store) (f : Plain → Plain) : Prop :=
  ∃ x : Effect, Within M x.actions ∧ ∀ p, AlikeOn M s p.store → f p = x.apply p

/-- The same from every store on. -/
def Confined (M : Nat → Prop) (f : Plain → Plain) : Prop := ∀ s, ConfinedAt M s f

theorem ConfinedAt.congr (h : ConfinedAt M s f)
    (heq : ∀ p, AlikeOn M s p.store → g p = f p) : ConfinedAt M s g := by
  obtain ⟨x, hwithin, heffect⟩ := h
  exact ⟨x, hwithin, fun p hp => (heq p hp).trans (heffect p hp)⟩

theorem ConfinedAt.andThen (hf : ConfinedAt M s f) (hg : Confined M g) :
    ConfinedAt M s fun p => g (f p) := by
  obtain ⟨x, hx, hfirst⟩ := hf
  obtain ⟨y, hy, hsecond⟩ := hg (x.actions.foldl Store.perform s)
  refine ⟨x.andThen y, hx.append hy, fun p hp => ?_⟩
  show g (f p) = (x.andThen y).apply p
  rw [hfirst p hp, Effect.apply_andThen]
  -- the second part comes to stores that are alike again
  exact hsecond (x.apply p) (hp.performAll hx)

theorem Confined.foldl {α : Type} {f : Plain → α → Plain} {l : List α}
    (h : ∀ a ∈ l, Confined M fun p => f p a) : Confined M fun p => l.foldl f p := by
  induction l with
  | nil =>
      intro s
      refine ⟨{}, Store.within_nil M, fun p _ => ?_⟩
      simp [Effect.apply, Report.plus]
  | cons a l ih =>
      obtain ⟨ha, hl⟩ := List.forall_mem_cons.mp h
      exact fun s => (ha s).andThen (ih hl)

/-- Counts and failures that are added whatever the store. -/
theorem confined_of_eq (M : Nat → Prop) (report : Report) (failures : List Failure)
    (h : ∀ p, f p = (Effect.mk [] report failures).apply p) : Confined M f :=
  fun _ => ⟨⟨[], report, failures⟩, Store.within_nil M, fun p _ => h p⟩

theorem confined_note (M : Nat → Prop) (failures : List Failure) :
    Confined M fun p => p.note failures :=
  confined_of_eq M {} failures fun p => by simp [note, Effect.apply, Report.plus]

theorem confined_skipStale (M : Nat → Prop) : Confined M skipStale :=
  confined_of_eq M { staleSkips := 1 } [] fun p => by simp [skipStale, Effect.apply, Report.plus]

theorem confined_skip (M : Nat → Prop) (e : Failure) : Confined M fun p => p.skip e := by
  cases e with
  | staleReference e => exact confined_skipStale M
  | malformed | capacityExceeded | evaluation | conversion => exact confined_note M _

end Parts

/-! ## Entities -/

section Entities

variable {M : Nat → Prop} {s t : Store} {e : Nat}

theorem resolve_congr (h : AlikeOn M s t) {document : Json}
    (hindex : ∀ e, Document.indexOf document = .ok e → M e) :
    t.resolve document = s.resolve document := by
  rw [Store.resolve, Store.resolve]
  cases hnamed : Document.indexOf document with
  | error fault => rfl
  | ok e => simp only [Store.entity, h.capacity, h.isActive (hindex e hnamed)]

theorem confined_deactivate (he : M e) : Confined M fun p => p.deactivate e := by
  intro s
  cases hactive : s.isActive e with
  | false =>
      refine ⟨{}, Store.within_nil M, fun p hp => ?_⟩
      simp [deactivate, hp.isActive he, hactive, Effect.apply, Report.plus]
  | true =>
      refine ⟨⟨[.deactivate e], { entitiesDeactivated := 1 }, []⟩, ?_, fun p hp => ?_⟩
      · simp only [Within, List.mem_singleton, forall_eq]
        exact ⟨e, he, rfl⟩
      · simp [deactivate, hp.isActive he, hactive, Effect.apply, Report.plus, Store.perform]

/-- A document written to an entity. -/
theorem confined_write (document : Json) (operations : List Operation) (he : M e) :
    Confined M fun p => p.write document operations e := by
  intro s
  have hgone (fault : Failure) (hfault : ∀ p : Plain, AlikeOn M s p.store →
      Document.write (touched operations document) e p.store = .error fault) :
      ConfinedAt M s fun p => p.write document operations e := by
    refine (confined_skip M fault s).congr fun p hp => ?_
    rw [write, hfault p hp]
  cases hactive : s.isActive e with
  | false =>
      refine hgone (.staleReference e) fun p hp => ?_
      simp [Document.write, hp.isActive he, hactive]
  | true =>
      have hslot {t : Store} (h : AlikeOn M s t) : t.slot e = ⟨true, (s.slot e).components⟩ := by
        rw [h.slot e he, ← hactive, Store.isActive]
      rcases Document.planned_write e (s.slot e).components (touched operations document) with
        ⟨fault, hfault⟩ | ⟨actions, failures, count, hedits, hplan⟩
      · exact hgone fault fun p hp => hfault p.store (hslot hp)
      · refine ⟨⟨actions, { entitiesWritten := 1 }, failures⟩, fun a ha => ⟨e, he, ?_⟩,
          fun p hp => ?_⟩
        · exact (hedits a ha).at
        · simp [write, hplan p.store (hslot hp), Effect.apply, Report.plus]

/-- Operations that do not aim at the number of an entity leave it in its document. -/
theorem eq_of_indexOf_run (table : Expr.Operators) (time : Json) (label : String)
    {operations : List Operation} (survivors : List Json)
    (hkeeps : ∀ op ∈ operations, ∀ t, op.target = .ok t → t.root ≠ "_index") {document : Json}
    (hread : Document.read? s e = some document) {i : Nat}
    (hindex : Document.indexOf (((Mutation.run table label operations
      (.obj (operationScope time survivors document))).context.get? "self").getD .null) = .ok i) :
    i = e := by
  obtain ⟨-, rfl⟩ := Document.read?_eq_some_iff.mp hread
  obtain ⟨fields, hcontext, hedited⟩ :=
    edited_run table label time survivors hkeeps (Document.members s e)
  rw [hcontext] at hindex
  exact Document.eq_of_indexOf hedited.index hindex

/-- Operations on the document of an entity. -/
theorem confined_mutate (table : Expr.Operators) (time : Json) (label : String)
    {operations : List Operation} (survivors : List Json)
    (hkeeps : (∀ i, M i) ∨ ∀ op ∈ operations, ∀ t, op.target = .ok t → t.root ≠ "_index")
    (he : M e) :
    Confined M fun p => p.mutate table time label operations survivors e := by
  intro s
  have hread (p : Plain) (hp : AlikeOn M s p.store) :
      Document.read? p.store e = Document.read? s e := Document.read?_congr (hp.slot e he)
  cases hdocument : Document.read? s e with
  | none =>
      refine (confined_skipStale M s).congr fun p hp => ?_
      rw [mutate, hread p hp, hdocument]
  | some document =>
      generalize houtcome : Mutation.run table label operations
        (.obj (operationScope time survivors document)) = o
      generalize hself : (o.context.get? "self").getD .null = edited
      have hindex : ∀ i, Document.indexOf edited = .ok i → M i := by
        intro i hi
        rcases hkeeps with hall | hkeeps
        · exact hall i
        · -- the edited document still names the entity from which it was read
          rw [← hself, ← houtcome] at hi
          exact eq_of_indexOf_run table time label survivors hkeeps hdocument hi ▸ he
      have hnote := confined_note M o.failures s
      cases hresolve : s.resolve edited with
      | ok target =>
          have htarget := hindex target (Store.resolve_eq_ok_iff.mp hresolve).1
          refine (hnote.andThen (confined_write edited operations htarget)).congr fun p hp => ?_
          simp only [mutate, hread p hp, hdocument, houtcome, hself, note,
            resolve_congr hp hindex, hresolve]
      | error fault =>
          refine (hnote.andThen (confined_skip M fault)).congr fun p hp => ?_
          simp only [mutate, hread p hp, hdocument, houtcome, hself, note,
            resolve_congr hp hindex, hresolve]

end Entities

/-! ## Rules -/

section Rules

variable {M : Nat → Prop} {s t : Store} {table : Expr.Operators} {time : Json} {r : Registry}
  {active : ActiveRule}

theorem confined_execute (table : Expr.Operators) (time : Json) (rule : Rule)
    (survivors : List Json) {entities : List Nat}
    (hkeeps : (∀ i, M i) ∨ rule.KeepsIndex) (hentities : ∀ e ∈ entities, M e) :
    Confined M fun p => p.execute table time rule survivors entities := by
  cases hcommand : rule.command with
  | deactivate =>
      simp only [execute, hcommand]
      exact Confined.foldl fun e he => confined_deactivate (hentities e he)
  | loadScene path =>
      simp only [execute, hcommand]
      by_cases hnone : entities = []
      · simp only [if_pos hnone]
        exact confined_of_eq M {} [] fun p => by simp [Effect.apply, Report.plus]
      · simp only [if_neg hnone]
        exact confined_of_eq M { sceneRequest := some path } [] fun p => by
          simp [Effect.apply, Report.plus]
  | mutate operations =>
      simp only [execute, hcommand]
      exact Confined.foldl fun e he => confined_mutate table time rule.label survivors
        (hkeeps.imp_right fun h => h operations hcommand) (hentities e he)

theorem documents_congr {found : EntitySet} (h : AlikeOn M s t)
    (hfound : ∀ e ∈ found.members, M e) : documents t found = documents s found :=
  List.filterMap_congr fun e he => Document.read?_congr (h.slot e (hfound e he))

/-- The survivors of a filter depend on the documents in the set of the selector. -/
theorem survivors_congr (h : AlikeOn M s t)
    (hmatches : ∀ e, r.Matches active e → M e) :
    survivors table time r t active = survivors table time r s active := by
  rw [survivors, survivors]
  cases hset : r.found? active.selector with
  | none => rfl
  | some found => simp only [documents_congr h fun e he => hmatches e ⟨found, hset, he⟩]

theorem answers_congr (h : AlikeOn M s t) {l : List Json}
    (hnamed : ∀ survivor ∈ l, ∀ e, Document.indexOf survivor = .ok e → M e) :
    answers t l = answers s l :=
  List.map_congr_left fun survivor hsurvivor =>
    resolve_congr h (hnamed survivor (List.mem_filter.mp hsurvivor).1)

/-- A rule works within the set of its selector and the entities that its survivors name. -/
theorem confinedAt_runRule (hkeeps : (∀ i, M i) ∨ active.rule.KeepsIndex)
    (hmatches : ∀ e, r.Matches active e → M e)
    (hnamed : ∀ l, survivors table time r s active = .ok l →
      ∀ survivor ∈ l, ∀ e, Document.indexOf survivor = .ok e → M e) :
    ConfinedAt M s fun p => p.runRule table time r active := by
  cases hsurvivors : survivors table time r s active with
  | error fault =>
      refine (confined_of_eq M { rulesSkipped := 1 } [fault] (fun _ => rfl) s).congr fun p hp => ?_
      simp [runRule, survivors_congr hp hmatches, hsurvivors, note, Effect.apply, Report.plus]
  | ok l =>
      have hentities : ∀ e ∈ targets s l, M e := by
        intro e he
        obtain ⟨⟨survivor, hmem, hindex⟩, -⟩ := mem_targets_iff.mp he
        exact hnamed l hsurvivors survivor hmem e hindex
      have hcount := confined_of_eq M { rulesRun := 1 } [] (fun _ => rfl) s
      have hskips : Confined M fun p => (faults s l).foldl skip p :=
        Confined.foldl fun fault _ => confined_skip M fault
      have hexecute := confined_execute table time active.rule l hkeeps hentities
      refine ((hcount.andThen hskips).andThen hexecute).congr fun p hp => ?_
      have hanswers : answers p.store l = answers s l := answers_congr hp (hnamed l hsurvivors)
      simp [runRule, survivors_congr hp hmatches, hsurvivors, targets, faults, hanswers,
        Effect.apply, Report.plus]

end Rules

end Plain
end EntityRules
