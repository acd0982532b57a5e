import EntityRules.Proofs.Document.Edits
import EntityRules.Proofs.Document.Frame
import EntityRules.Proofs.Rule.Untouched
import Mathlib.Data.Finset.Card

/-!
# What becomes of survivors

The survivors of a filter that are not null name entities.  Under operations each of them ends in
one of three ways: its document is written, its entity is gone, or it names no entity at all.  That
can be found out at two places, before the first operation runs and after the operations on its own
document, which may name another entity then.  A document that names an active entity is always
written.

**Results.**
* `Store.resolve_error`: why a document names no active entity.
* `credits_mutate`, `deactivateAll_eq`: one survivor under operations, and entities that end.
* `credits_runRule`, `ends_runRule`, `skips_runRule`: a rule.
* `get?_of_write?`, `store_runRule`: what is counted as written is in the store.
* `Driver.run_accounts_for_survivors`: a pass.
-/

namespace EntityRules

/-! ## What survivors name -/

section Naming

variable {s : Store} {document : Json}

/-- The entity is gone, or the document names none. -/
theorem Store.resolve_error {fault : Failure} (h : s.resolve document = .error fault) :
    (∃ i, fault = .staleReference i) ∨ ∃ message, fault = .conversion "_index" message := by
  cases hindex : Document.indexOf document with
  | error other =>
      simp only [resolve, hindex] at h
      obtain rfl := Except.error.inj h
      rw [Document.indexOf] at hindex
      split at hindex
      · cases hindex
      · exact Or.inr ⟨_, (Except.error.inj hindex).symm⟩
  | ok i =>
      simp only [resolve, hindex] at h
      split at h
      · cases h
      · exact Or.inl ⟨_, (Except.error.inj h).symm⟩
      · exact Or.inr ⟨_, (Except.error.inj h).symm⟩

/-- The active entities that survivors name, each once. -/
def Plain.named (s : Store) (survivors : List Json) : Finset Nat :=
  (survivors.filterMap fun survivor => (Document.indexOf survivor).toOption).toFinset.filter
    fun e => s.isActive e = true

theorem Plain.named_eq (s : Store) (survivors : List Json) :
    named s survivors = (targets s survivors).toFinset.filter fun e => s.isActive e = true := by
  have hoption (survivor : Json) (e : Nat) :
      (Document.indexOf survivor).toOption = some e ↔ Document.indexOf survivor = .ok e := by
    cases Document.indexOf survivor with
    | error fault => exact ⟨nofun, nofun⟩
    | ok i => exact ⟨fun h => congrArg _ (Option.some.inj h), fun h => congrArg _ (Except.ok.inj h)⟩
  ext e
  simp only [named, Finset.mem_filter, List.mem_toFinset, List.mem_filterMap, hoption,
    mem_targets_iff, and_assoc, and_self]

end Naming

namespace Pass

variable {p q t : Pass}

/-! ## Survivors under operations -/

/-- How a survivor ends under operations. -/
inductive Ending where
  /-- The document is written. -/
  | written
  /-- The entity is gone. -/
  | stale
  /-- There is no entity. -/
  | refused (e : Failure)

namespace Ending

/-- The ending of a survivor that cannot be resolved. -/
def unresolved : Failure → Ending
  | .staleReference _ => .stale
  | e => .refused e

def isWritten : Ending → Bool
  | .written => true
  | _ => false

def isStale : Ending → Bool
  | .stale => true
  | _ => false

def refusals : Ending → List Failure
  | .refused e => [e]
  | _ => []

end Ending

/-- The ending of a survivor, and the failures of its operations and of the fields that are
written. -/
structure Handling where
  ending : Ending
  noted : List Failure := []

namespace Handling

/-- All failures that a survivor reports. -/
def reports (h : Handling) : List Failure := h.noted ++ h.ending.refusals

end Handling

/-- How a survivor ends that names an active entity. -/
def handle (p : Pass) (label : String) (operations : List Operation) (roots : List String)
    (e : Nat) : Handling :=
  match p.driver.take p.store e with
  | (_, none) => { ending := .stale }
  | (driver, some document) =>
    let scope := Assoc.insert Mutation.selfKey document driver.mutationScope
    let o := Mutation.run driver.table label operations (.obj scope)
    let document := (o.context.get? Mutation.selfKey).getD .null
    match p.store.resolve document with
    | .ok target =>
      let failures :=
        match Document.write (patchOf document roots) target p.store with
        | .ok w => w.failures
        | .error _ => []
      ⟨.written, o.failures ++ failures⟩
    | .error e => ⟨.unresolved e, o.failures⟩

/-- How survivors end, for which it is known what they name.  Operations run on those that name an
active entity, in order. -/
def handlings (label : String) (operations : List Operation) (roots : List String) :
    Pass → List (Except Failure Nat) → List Handling
  | _, [] => []
  | p, .error e :: rest => { ending := .unresolved e } :: handlings label operations roots p rest
  | p, .ok e :: rest =>
    p.handle label operations roots e ::
      handlings label operations roots (p.mutate label operations roots e) rest

/-- The pass when the command of a rule begins. -/
def reach (r : Registry) (p : Pass) (active : ActiveRule) (survivors : List Json) : Pass :=
  ((p.filter r active).1.countRun.targets survivors).1

/-- How the survivors of a rule with operations end. -/
def handled (r : Registry) (p : Pass) (active : ActiveRule) (operations : List Operation)
    (survivors : List Json) : List Handling :=
  handlings active.rule.label operations (Command.mutate operations).changedFields
    ((reach r p active survivors).setSurvivors survivors) (Plain.answers p.store survivors)

/-- A pass that has counted the endings of survivors and has their reports, in some order. -/
structure Credits (p q : Pass) (l : List Handling) : Prop where
  report : q.report =
    { p.report with
      entitiesWritten := p.report.entitiesWritten + l.countP (·.ending.isWritten)
      staleSkips := p.report.staleSkips + l.countP (·.ending.isStale) }
  diagnostics : ∃ log : List Failure,
    log.Perm (l.flatMap Handling.reports) ∧ q.diagnostics = p.diagnostics.reportAll log

section Operations

theorem Credits.refl (p : Pass) : Credits p p [] := ⟨rfl, [], .refl [], rfl⟩

theorem Credits.trans {l m : List Handling} (hpq : Credits p q l) (hqt : Credits q t m) :
    Credits p t (l ++ m) where
  report := by
    rw [hqt.report, hpq.report]
    simp only [List.countP_append, Nat.add_assoc]
  diagnostics := by
    obtain ⟨first, hfirst, hq⟩ := hpq.diagnostics
    obtain ⟨rest, hrest, ht⟩ := hqt.diagnostics
    refine ⟨first ++ rest, ?_, ?_⟩
    · rw [List.flatMap_append]
      exact hfirst.append hrest
    · rw [ht, hq, Diagnostics.reportAll_append]

theorem Credits.perm {l m : List Handling} (h : Credits p q l) (hperm : l.Perm m) :
    Credits p q m where
  report := by rw [h.report, hperm.countP_eq, hperm.countP_eq]
  diagnostics := by
    obtain ⟨log, hlog, hq⟩ := h.diagnostics
    exact ⟨log, hlog.trans (hperm.flatMap_right _), hq⟩

/-- A survivor that cannot be resolved, after its operations have reported failures. -/
theorem credits_skipOrFail {failures : List Failure} (hreport : q.report = p.report)
    (hdiagnostics : q.diagnostics = p.diagnostics.reportAll failures) (e : Failure) :
    Credits p (q.skipOrFail e) [⟨.unresolved e, failures⟩] where
  report := by
    cases e with
    | staleReference i =>
        simp only [skipOrFail, skipStale, hreport]
        rfl
    | malformed | capacityExceeded | evaluation | conversion => exact hreport
  diagnostics := by
    refine ⟨failures ++ (Ending.unresolved e).refusals, ?_, ?_⟩
    · rw [List.flatMap_singleton]
      exact .refl _
    · rw [Diagnostics.reportAll_append, ← hdiagnostics]
      cases e <;> rfl

/-- The members that are moved out of a document are an object with distinct keys. -/
theorem exists_patchOf (document : Json) (roots : List String) :
    ∃ fields, patchOf document roots = .obj fields ∧ Assoc.Distinct fields := by
  cases document with
  | obj fields =>
      obtain ⟨patch, hpatch, hsorted, -⟩ := patchOf_obj fields roots
      exact ⟨patch, hpatch, hsorted.distinct⟩
  | null | bool | num | str | arr => exact ⟨[], rfl, List.Pairwise.nil⟩

/-- The members that are moved out of a document are written to every active entity. -/
theorem write_patchOf {s : Store} {target : Nat} (h : s.isActive target = true) (document : Json)
    (roots : List String) : ∃ w, Document.write (patchOf document roots) target s = .ok w := by
  obtain ⟨fields, hpatch, -⟩ := exists_patchOf document roots
  rw [hpatch]
  exact ⟨_, if_pos h⟩

/-- A survivor that names an active entity. -/
theorem credits_mutate (p : Pass) (label : String) (operations : List Operation)
    (roots : List String) (e : Nat) :
    Credits p (p.mutate label operations roots e) [p.handle label operations roots e] := by
  cases htake : p.driver.take p.store e with
  | mk driver taken =>
      cases taken with
      | none =>
          simp only [mutate, handle, htake]
          exact ⟨rfl, [], .refl [], rfl⟩
      | some document =>
          simp only [mutate, handle, htake]
          generalize Mutation.run driver.table label operations _ = o
          generalize (o.context.get? Mutation.selfKey).getD .null = document'
          cases hresolve : p.store.resolve document' with
          | error fault =>
              refine credits_skipOrFail ?_ ?_ fault
              · rfl
              · rfl
          | ok target =>
              -- the target is active and the patch is an object, so nothing is left to fail
              obtain ⟨-, hactive⟩ := Store.resolve_eq_ok_iff.mp hresolve
              obtain ⟨w, hwrite⟩ := write_patchOf hactive document' roots
              simp only [writeBack, hwrite]
              refine ⟨rfl, o.failures ++ w.failures, ?_, ?_⟩
              · simp only [List.flatMap_singleton, Handling.reports, Ending.refusals,
                  List.append_nil]
                exact .refl _
              · rw [Diagnostics.reportAll_append]

/-- The endings that are found out first come before the others. -/
theorem handlings_perm (label : String) (operations : List Operation) (roots : List String)
    (p : Pass) (answers : List (Except Failure Nat)) :
    let early := answers.filterMap fun
      | .ok _ => none
      | .error e => some e
    let entities := answers.filterMap fun answer => answer.toOption
    (early.map (fun e => Handling.mk (.unresolved e) []) ++
        outputs (fun p e => p.mutate label operations roots e)
          (fun p e => [p.handle label operations roots e]) p entities).Perm
      (handlings label operations roots p answers) := by
  induction answers generalizing p with
  | nil => exact .refl []
  | cons answer answers ih =>
      cases answer with
      | error e => exact (ih p).cons _
      -- the survivor comes after all that name no entity, also after those that follow it
      | ok e => exact List.perm_middle.trans ((ih (p.mutate label operations roots e)).cons _)

theorem credits_foldl_skipOrFail (p : Pass) (faults : List Failure) :
    Credits p (faults.foldl skipOrFail p) (faults.map fun e => ⟨.unresolved e, []⟩) := by
  induction faults generalizing p with
  | nil => exact .refl p
  | cons e faults ih =>
      have hskip : Credits p (p.skipOrFail e) [⟨.unresolved e, []⟩] := credits_skipOrFail rfl rfl e
      exact hskip.trans (ih (p.skipOrFail e))

theorem credits_foldl_mutate (label : String) (operations : List Operation) (roots : List String)
    (p : Pass) (entities : List Nat) :
    Credits p (entities.foldl (fun p e => p.mutate label operations roots e) p)
      (outputs (fun p e => p.mutate label operations roots e)
        (fun p e => [p.handle label operations roots e]) p entities) := by
  induction entities generalizing p with
  | nil => exact .refl p
  | cons e entities ih => exact (p.credits_mutate label operations roots e).trans (ih _)

/-- The operations of a rule. -/
theorem credits_execute {rule : Rule} {operations : List Operation}
    (hcommand : rule.command = .mutate operations) (p : Pass) (survivors : List Json)
    (entities : List Nat) :
    let roots := (Command.mutate operations).changedFields
    Credits p (p.execute rule survivors entities)
      (outputs (fun p e => p.mutate rule.label operations roots e)
        (fun p e => [p.handle rule.label operations roots e]) (p.setSurvivors survivors)
        entities) := by
  have hruns := credits_foldl_mutate rule.label operations (Command.mutate operations).changedFields
    (p.setSurvivors survivors) entities
  simp only [execute, hcommand]
  exact ⟨hruns.report, hruns.diagnostics⟩

end Operations

/-! ## Survivors that end -/

section Endings

/-- The members with a property, one of which is left out and then counted. -/
theorem card_filter_erase (e : Nat) (l : Finset Nat) (P : Nat → Prop) [DecidablePred P] :
    (l.filter fun i => P i ∧ i ≠ e).card + 1 = (insert e (l.filter P)).card := by
  have herase : l.filter (fun i => P i ∧ i ≠ e) = (l.filter P).erase e := by
    ext i
    simp only [Finset.mem_filter, Finset.mem_erase]
    exact ⟨fun h => ⟨h.2.2, h.1, h.2.1⟩, fun h => ⟨h.2.1, h.2.2, h.1⟩⟩
  rw [herase, ← Finset.erase_insert_eq_erase,
    Finset.card_erase_add_one (Finset.mem_insert_self e _)]

/-- Entities that end: each of those that are active counts once and is not active any more. -/
theorem deactivateAll_eq (p : Pass) (entities : List Nat) :
    let q := entities.foldl deactivate p
    q.report =
        { p.report with
          entitiesDeactivated := p.report.entitiesDeactivated +
            (entities.toFinset.filter fun e => p.store.isActive e = true).card } ∧
      ∀ i, q.store.isActive i = true ↔ p.store.isActive i = true ∧ i ∉ entities := by
  induction entities generalizing p with
  | nil => exact ⟨rfl, fun i => by simp⟩
  | cons e entities ih =>
      obtain ⟨hreport, hstore⟩ := ih (p.deactivate e)
      have hactives (i : Nat) := p.store.isActive_deactivate e i
      rw [List.foldl_cons, List.toFinset_cons, Finset.filter_insert]
      rcases p.store.deactivate_cases e with ⟨hactive, heq⟩ | ⟨hactive, heq⟩
      · -- the entity was not active, or it was named before and has ended
        have hsame : p.deactivate e = p := by rw [Pass.deactivate, heq]
        have hnot : ¬p.store.isActive e = true := by simp [hactive]
        rw [hsame] at hreport hstore ⊢
        rw [if_neg hnot]
        refine ⟨hreport, fun i => ?_⟩
        rw [hstore, List.mem_cons, not_or]
        have hother : p.store.isActive i = true → i ≠ e := fun h heq => hnot (heq ▸ h)
        exact ⟨fun h => ⟨h.1, hother h.1, h.2⟩, fun h => ⟨h.1, h.2.2⟩⟩
      · have hcount := card_filter_erase e entities.toFinset fun i => p.store.isActive i = true
        rw [heq] at hactives
        rw [Pass.deactivate, heq] at hreport hstore ⊢
        simp only [hactives] at hreport hstore ⊢
        rw [if_pos hactive, hreport]
        refine ⟨?_, fun i => ?_⟩
        · rw [← hcount, Nat.add_assoc, Nat.add_comm 1]
        · rw [hstore, List.mem_cons, not_or, and_assoc]

end Endings

/-! ## One rule -/

section Rules

variable {r : Registry} {active : ActiveRule} {survivors : List Json}

/-- A pass that has skipped a rule for a failure of its filter, and has done nothing else. -/
structure Skips (p q : Pass) (label : String) (e : Failure) : Prop where
  failure : ∃ message, e = .evaluation label message
  report : q.report = { p.report with rulesSkipped := p.report.rulesSkipped + 1 }
  diagnostics : q.diagnostics = p.diagnostics.report e
  store : q.store = p.store

/-- A filter changes the driver only. -/
theorem filter_eq (p : Pass) (r : Registry) (active : ActiveRule) :
    (p.filter r active).1 = { p with driver := (p.filter r active).1.driver } := by
  simp only [Pass.filter]
  split
  · simp only [filterOver]
    split <;> rfl
  · rfl

theorem evaluation_of_filter {e : Failure} (h : (p.filter r active).2 = .error e) :
    ∃ message, e = .evaluation active.rule.label message := by
  simp only [Pass.filter] at h
  split at h
  · simp only [filterOver] at h
    split at h
    · cases h
    · exact ⟨_, (Except.error.inj h).symm⟩
    · exact ⟨_, (Except.error.inj h).symm⟩
  · exact ⟨_, (Except.error.inj h).symm⟩

/-- A rule whose filter fails. -/
theorem skips_runRule {e : Failure} (h : (p.filter r active).2 = .error e) :
    Skips p (runRule r p active) active.rule.label e := by
  have hresult : p.filter r active = ((p.filter r active).1, .error e) := Prod.ext rfl h
  rw [runRule_of_error hresult, filter_eq]
  exact ⟨evaluation_of_filter h, rfl, rfl, rfl⟩

theorem store_reach (r : Registry) (p : Pass) (active : ActiveRule) (survivors : List Json) :
    (reach r p active survivors).store = p.store :=
  (store_targets _ survivors).trans (p.store_filter r active)

/-- Before the command begins, the survivors are handled that name no active entity. -/
theorem credits_reach (r : Registry) (p : Pass) (active : ActiveRule) (survivors : List Json) :
    Credits p.countRun (reach r p active survivors)
      ((Plain.faults p.store survivors).map fun e => ⟨.unresolved e, []⟩) := by
  have hskips := credits_foldl_skipOrFail (p.filter r active).1.countRun
    (Plain.faults p.store survivors)
  rw [reach, targets_eq]
  rw [filter_eq] at hskips ⊢
  exact ⟨hskips.report, hskips.diagnostics⟩

/-- A rule whose filter gives survivors: the command runs on those that name active entities. -/
theorem runRule_eq (h : (p.filter r active).2 = .ok survivors) :
    runRule r p active =
      (reach r p active survivors).execute active.rule survivors
        (Plain.targets p.store survivors) := by
  have hresult : p.filter r active = ((p.filter r active).1, .ok survivors) := Prod.ext rfl h
  have hstore : (p.filter r active).1.countRun.store = p.store := p.store_filter r active
  rw [runRule_of_ok hresult, reach, targets_eq, hstore]

/-- Commands leave the numbers of the rules. -/
theorem rules_execute (p : Pass) (rule : Rule) (survivors : List Json) (entities : List Nat) :
    (p.execute rule survivors entities).report.rulesRun = p.report.rulesRun ∧
      (p.execute rule survivors entities).report.rulesSkipped = p.report.rulesSkipped := by
  cases hcommand : rule.command with
  | deactivate =>
      obtain ⟨hreport, -⟩ := p.deactivateAll_eq entities
      simp only [execute, hcommand]
      rw [hreport]
      exact ⟨rfl, rfl⟩
  | loadScene path =>
      simp only [execute, hcommand]
      split <;> exact ⟨rfl, rfl⟩
  | mutate operations =>
      rw [(credits_execute hcommand p survivors entities).report]
      exact ⟨rfl, rfl⟩

theorem rules_runRule (h : (p.filter r active).2 = .ok survivors) :
    (runRule r p active).report.rulesRun = p.report.rulesRun + 1 ∧
      (runRule r p active).report.rulesSkipped = p.report.rulesSkipped := by
  rw [runRule_eq h, (rules_execute _ _ _ _).1, (rules_execute _ _ _ _).2,
    (credits_reach r p active survivors).report]
  exact ⟨rfl, rfl⟩

/-- Each rule runs or is skipped. -/
theorem rules_foldl_runRule (r : Registry) (p : Pass) (rules : List ActiveRule) :
    (rules.foldl (runRule r) p).report.rulesRun + (rules.foldl (runRule r) p).report.rulesSkipped =
      p.report.rulesRun + p.report.rulesSkipped + rules.length := by
  induction rules generalizing p with
  | nil => rfl
  | cons active rules ih =>
      have hone : (runRule r p active).report.rulesRun + (runRule r p active).report.rulesSkipped =
          p.report.rulesRun + p.report.rulesSkipped + 1 := by
        cases hresult : (p.filter r active).2 with
        | error e =>
            rw [(skips_runRule hresult).report]
            rfl
        | ok survivors =>
            obtain ⟨hrun, hskipped⟩ := rules_runRule hresult
            rw [hrun, hskipped]
            omega
      rw [List.foldl_cons, ih, hone, List.length_cons]
      omega

/-- The survivors of a rule with operations. -/
theorem credits_runRule {operations : List Operation}
    (hcommand : active.rule.command = .mutate operations)
    (h : (p.filter r active).2 = .ok survivors) :
    Credits p.countRun (runRule r p active) (handled r p active operations survivors) := by
  have hexecute := credits_execute hcommand (reach r p active survivors) survivors
    (Plain.targets p.store survivors)
  rw [runRule_eq h]
  exact ((credits_reach r p active survivors).trans hexecute).perm (handlings_perm _ _ _ _ _)

/-- The survivors of a rule that ends entities. -/
theorem ends_runRule (hcommand : active.rule.command = .deactivate)
    (h : (p.filter r active).2 = .ok survivors) :
    (runRule r p active).report.entitiesDeactivated =
        p.report.entitiesDeactivated + (Plain.named p.store survivors).card ∧
      ∀ e ∈ Plain.named p.store survivors, (runRule r p active).store.isActive e = false := by
  obtain ⟨hreport, hactive⟩ := (reach r p active survivors).deactivateAll_eq
    (Plain.targets p.store survivors)
  rw [store_reach] at hreport hactive
  simp only [runRule_eq h, execute, hcommand]
  refine ⟨?_, fun e he => ?_⟩
  · rw [hreport, (credits_reach r p active survivors).report, Plain.named_eq]
    rfl
  · rw [Plain.named_eq, Finset.mem_filter, List.mem_toFinset] at he
    exact eq_false_of_ne_true fun hstays => ((hactive e).mp hstays).2 he.1

end Rules

/-! ## The endings of the survivors of a rule -/

section Counts

/-- A failure about the number of an entity. -/
def OfIndex (e : Failure) : Prop := ∃ message, e = .conversion "_index" message

theorem ofIndex_unresolved {s : Store} {document : Json} {fault : Failure}
    (h : s.resolve document = .error fault) :
    ∀ e ∈ (Ending.unresolved fault).refusals, OfIndex e := by
  rcases Store.resolve_error h with ⟨i, rfl⟩ | ⟨message, rfl⟩
  · exact nofun
  · exact List.forall_mem_singleton.mpr ⟨message, rfl⟩

theorem ofIndex_handle (p : Pass) (label : String) (operations : List Operation)
    (roots : List String) (i : Nat) :
    ∀ e ∈ (p.handle label operations roots i).ending.refusals, OfIndex e := by
  rw [handle]
  split
  · exact nofun
  · simp only
    split
    · exact nofun
    · next fault hresolve => exact ofIndex_unresolved hresolve

theorem ofIndex_handlings (label : String) (operations : List Operation) (roots : List String)
    (p : Pass) {answers : List (Except Failure Nat)}
    (hanswers : ∀ fault, .error fault ∈ answers →
      ∀ e ∈ (Ending.unresolved fault).refusals, OfIndex e) :
    ∀ h ∈ handlings label operations roots p answers, ∀ e ∈ h.ending.refusals, OfIndex e := by
  induction answers generalizing p with
  | nil => exact nofun
  | cons answer answers ih =>
      have hrest : ∀ fault, .error fault ∈ answers →
          ∀ e ∈ (Ending.unresolved fault).refusals, OfIndex e :=
        fun fault hfault => hanswers fault (List.mem_cons_of_mem answer hfault)
      cases answer with
      | error fault =>
          exact List.forall_mem_cons.mpr ⟨hanswers fault List.mem_cons_self, ih p hrest⟩
      | ok i =>
          exact List.forall_mem_cons.mpr ⟨p.ofIndex_handle label operations roots i, ih _ hrest⟩

theorem ofIndex_handled (r : Registry) (p : Pass) (active : ActiveRule)
    (operations : List Operation) (survivors : List Json) :
    ∀ h ∈ handled r p active operations survivors, ∀ e ∈ h.ending.refusals, OfIndex e := by
  refine ofIndex_handlings _ _ _ _ fun fault hfault => ?_
  obtain ⟨survivor, -, hresolve⟩ := List.mem_map.mp hfault
  exact ofIndex_unresolved hresolve

theorem length_handlings (label : String) (operations : List Operation) (roots : List String)
    (p : Pass) (answers : List (Except Failure Nat)) :
    (handlings label operations roots p answers).length = answers.length := by
  induction answers generalizing p with
  | nil => rfl
  | cons answer answers ih =>
      cases answer with
      | error fault => exact congrArg (· + 1) (ih p)
      | ok i => exact congrArg (· + 1) (ih _)

/-- Every survivor that is not null ends in one way. -/
theorem length_handled (r : Registry) (p : Pass) (active : ActiveRule)
    (operations : List Operation) (survivors : List Json) :
    (handled r p active operations survivors).length = survivors.countP (!·.isNull) := by
  rw [handled, length_handlings, Plain.answers, List.length_map, List.countP_eq_length_filter]

theorem count_endings (l : List Handling) :
    l.countP (·.ending.isWritten) + l.countP (·.ending.isStale) +
      (l.flatMap (·.ending.refusals)).length = l.length := by
  induction l with
  | nil => rfl
  | cons h l ih =>
      obtain ⟨ending, noted⟩ := h
      rw [List.countP_cons, List.countP_cons, List.flatMap_cons, List.length_append,
        List.length_cons, ← ih]
      cases ending <;> simp [Ending.isWritten, Ending.isStale, Ending.refusals] <;> omega

end Counts

/-! ## What survivors write -/

section Written

variable {r : Registry} {active : ActiveRule} {survivors : List Json} {label : String}
variable {operations : List Operation} {roots : List String} {e target : Nat} {patch : Json}

/-- What a survivor that names an active entity writes: the members that are moved out of its
document, and the entity that the document names after the operations. -/
def write? (p : Pass) (label : String) (operations : List Operation) (roots : List String)
    (e : Nat) : Option (Json × Nat) :=
  match p.driver.take p.store e with
  | (_, none) => none
  | (driver, some document) =>
    let scope := Assoc.insert Mutation.selfKey document driver.mutationScope
    let o := Mutation.run driver.table label operations (.obj scope)
    let document := (o.context.get? Mutation.selfKey).getD .null
    match p.store.resolve document with
    | .ok target => some (patchOf document roots, target)
    | .error _ => none

/-- The store after documents are written, one after another. -/
def writeAll (s : Store) (writes : List (Json × Nat)) : Store :=
  writes.foldl (fun s write => Document.writeTo write.1 write.2 s) s

/-- What the survivors of a rule with operations write. -/
def writes (r : Registry) (p : Pass) (active : ActiveRule) (operations : List Operation)
    (survivors : List Json) : List (Json × Nat) :=
  let label := active.rule.label
  let roots := (Command.mutate operations).changedFields
  outputs (fun p e => p.mutate label operations roots e)
    (fun p e => (p.write? label operations roots e).toList)
    ((reach r p active survivors).setSurvivors survivors) (Plain.targets p.store survivors)

/-- A survivor is written just if it writes a document, which is all that it does to the store. -/
theorem store_mutate (p : Pass) (label : String) (operations : List Operation)
    (roots : List String) (e : Nat) :
    (p.mutate label operations roots e).store =
        writeAll p.store (p.write? label operations roots e).toList ∧
      (p.handle label operations roots e).ending.isWritten =
        (p.write? label operations roots e).isSome := by
  cases htake : p.driver.take p.store e with
  | mk driver taken =>
      cases taken with
      | none =>
          simp only [mutate, handle, write?, htake]
          exact ⟨rfl, rfl⟩
      | some document =>
          simp only [mutate, handle, write?, htake]
          generalize Mutation.run driver.table label operations _ = o
          generalize (o.context.get? Mutation.selfKey).getD .null = document'
          cases hresolve : p.store.resolve document' with
          | error fault =>
              refine ⟨store_skipOrFail _ fault, ?_⟩
              cases fault <;> rfl
          | ok target =>
              obtain ⟨-, hactive⟩ := Store.resolve_eq_ok_iff.mp hresolve
              obtain ⟨w, hwrite⟩ := write_patchOf hactive document' roots
              simp only [writeBack, hwrite]
              refine ⟨?_, rfl⟩
              rw [Option.toList_some, writeAll, List.foldl_cons, Document.writeTo, hwrite]
              rfl

/-- What is written is there: the entity is active, and its components are what the document makes
of them. -/
theorem get?_of_write? (h : p.write? label operations roots e = some (patch, target)) :
    ∃ fields, patch = .obj fields ∧
      (p.mutate label operations roots e).store.isActive target = true ∧
      ∀ c, (p.mutate label operations roots e).store.get? c target =
        Document.becomesUnder fields c (p.store.get? c target) := by
  have hstore := (p.store_mutate label operations roots e).1
  rw [h, Option.toList_some, writeAll, List.foldl_cons, List.foldl_nil] at hstore
  rw [write?] at h
  split at h
  · cases h
  · simp only at h
    split at h
    · next document hresolve =>
      cases h
      obtain ⟨-, hactive⟩ := Store.resolve_eq_ok_iff.mp hresolve
      obtain ⟨w, hwrite⟩ := write_patchOf hactive _ roots
      obtain ⟨fields, hpatch, hdistinct⟩ := exists_patchOf _ roots
      rw [hstore, Document.writeTo, hwrite]
      rw [hpatch] at hwrite ⊢
      exact ⟨fields, rfl, Document.get?_write hdistinct hwrite⟩
    · cases h

theorem store_foldl_mutate (label : String) (operations : List Operation) (roots : List String)
    (p : Pass) (entities : List Nat) :
    let written := outputs (fun p e => p.mutate label operations roots e)
      (fun p e => (p.write? label operations roots e).toList) p entities
    (entities.foldl (fun p e => p.mutate label operations roots e) p).store =
        writeAll p.store written ∧
      (outputs (fun p e => p.mutate label operations roots e)
        (fun p e => [p.handle label operations roots e]) p entities).countP
          (·.ending.isWritten) = written.length := by
  induction entities generalizing p with
  | nil => exact ⟨rfl, rfl⟩
  | cons e entities ih =>
      obtain ⟨hone, hwritten⟩ := p.store_mutate label operations roots e
      obtain ⟨hrest, hcount⟩ := ih (p.mutate label operations roots e)
      refine ⟨?_, ?_⟩
      · rw [List.foldl_cons, hrest, hone, outputs, writeAll, writeAll, writeAll, List.foldl_append]
      · rw [outputs, outputs, List.countP_append, hcount, List.length_append, List.countP_singleton,
          hwritten]
        cases p.write? label operations roots e <;> rfl

/-- The store after a rule with operations has the documents of its survivors, as many as are
counted as written. -/
theorem store_runRule (hcommand : active.rule.command = .mutate operations)
    (h : (p.filter r active).2 = .ok survivors) :
    (runRule r p active).store = writeAll p.store (writes r p active operations survivors) ∧
      (handled r p active operations survivors).countP (·.ending.isWritten) =
        (writes r p active operations survivors).length := by
  let roots := (Command.mutate operations).changedFields
  let start := (reach r p active survivors).setSurvivors survivors
  obtain ⟨hstore, hcount⟩ := store_foldl_mutate active.rule.label operations roots start
    (Plain.targets p.store survivors)
  refine ⟨?_, ?_⟩
  · have hstart : start.store = p.store := store_reach r p active survivors
    rw [hstart] at hstore
    rw [runRule_eq h, execute, hcommand]
    exact hstore
  · have hperm := handlings_perm active.rule.label operations roots start
      (Plain.answers p.store survivors)
    rw [handled, ← hperm.countP_eq, List.countP_append]
    -- those that name no active entity come before the operations and write nothing
    refine (congrArg (· + _) (List.countP_eq_zero.mpr ?_)).trans ((Nat.zero_add _).trans hcount)
    intro handling hmem
    obtain ⟨fault, -, rfl⟩ := List.mem_map.mp hmem
    cases fault <;> exact Bool.false_ne_true

end Written

/-! ## What ends stays ended -/

/-- No entity becomes active. -/
theorem passRelation_inactive :
    PassRelation fun s t => ∀ e, s.isActive e = false → t.isActive e = false where
  refl _ _ h := h
  trans hst htu e h := htu e (hst e h)
  deactivate s e i h := by
    refine eq_false_of_ne_true fun hstays => ?_
    rw [((s.isActive_deactivate e i).mp hstays).1] at h
    cases h
  write hwrite e h := ((Document.sameActivity_of_write hwrite).active e).trans h

end Pass

/-! ## Passes -/

namespace Driver

/-- **The account of a pass.**  Every active rule runs or is skipped, and one that is skipped has
one failure reported, that of its filter.  Under operations each survivor that is not null ends in
one way: it is written, it is stale, or it is refused with a failure about the number of its entity.
Each active entity that the survivors of an ending rule name counts once, and it is not active when
the pass is over. -/
theorem run_accounts_for_survivors (d : Driver) (deltaTime : Float) (b : RuleBook) (r : Registry)
    (s : Store) (diagnostics : Diagnostics) :
    let whole := d.run deltaTime b r s diagnostics
    whole.report.rulesRun + whole.report.rulesSkipped = b.size ∧
      ∀ earlier active later, b.toList = earlier ++ active :: later →
        let p := earlier.foldl (Pass.runRule r) ⟨d.begin s.capacity deltaTime, s, diagnostics, {}⟩
        let p' := Pass.runRule r p active
        later.foldl (Pass.runRule r) p' = whole ∧
          (∀ e, (p.filter r active).2 = .error e → p.Skips p' active.rule.label e) ∧
          ∀ survivors, (p.filter r active).2 = .ok survivors →
            (p'.report.rulesRun = p.report.rulesRun + 1 ∧
              p'.report.rulesSkipped = p.report.rulesSkipped) ∧
            (∀ operations, active.rule.command = .mutate operations →
              let handled := p.handled r active operations survivors
              let refusals := handled.flatMap (·.ending.refusals)
              p.countRun.Credits p' handled ∧
                handled.length = survivors.countP (!·.isNull) ∧
                p'.report.entitiesWritten + p'.report.staleSkips + refusals.length =
                  p.report.entitiesWritten + p.report.staleSkips +
                    survivors.countP (!·.isNull) ∧
                ∀ e ∈ refusals, ∃ message, e = .conversion "_index" message) ∧
            (active.rule.command = .deactivate →
              p'.report.entitiesDeactivated =
                  p.report.entitiesDeactivated + (Plain.named p.store survivors).card ∧
                ∀ e ∈ Plain.named p.store survivors, whole.store.isActive e = false) := by
  intro whole
  refine ⟨?_, ?_⟩
  · have hall := Pass.rules_foldl_runRule r ⟨d.begin s.capacity deltaTime, s, diagnostics, {}⟩
      b.toList
    rw [RuleBook.toList, List.length_append, Nat.add_zero, Nat.zero_add] at hall
    exact hall
  · intro earlier active later hrules p p'
    have hwhole : later.foldl (Pass.runRule r) p' = whole := by
      simp only [whole, run, hrules, List.foldl_append, List.foldl_cons]
      rfl
    refine ⟨hwhole, fun e herror => Pass.skips_runRule herror, fun survivors hok =>
      ⟨Pass.rules_runRule hok, fun operations hcommand => ?_, fun hcommand => ?_⟩⟩
    · intro handled refusals
      have hcredits : p.countRun.Credits p' handled := Pass.credits_runRule hcommand hok
      have hlength : handled.length = survivors.countP (!·.isNull) :=
        p.length_handled r active operations survivors
      refine ⟨hcredits, hlength, ?_, fun e he => ?_⟩
      · have hendings := Pass.count_endings handled
        rw [hcredits.report, ← hlength, ← hendings]
        simp only [Pass.countRun, refusals]
        omega
      · obtain ⟨h, hh, he⟩ := List.mem_flatMap.mp he
        exact p.ofIndex_handled r active operations survivors h hh e he
    · obtain ⟨hcount, hends⟩ := Pass.ends_runRule hcommand hok
      refine ⟨hcount, fun e he => ?_⟩
      rw [← hwhole]
      exact Pass.passRelation_inactive.runRules p' r later e (hends e he)

/-- A filter that gives the first document twice, beside null and a text. -/
def echo : Json :=
  let first : Json := .obj [("var", .str "entities.0")]
  .arr [.null, first, .str "lamp", first]

/-- A rule that sets a property of the entities with the tag `door`. -/
def echoLight : ActiveRule :=
  let light : Operation := ⟨.ok ⟨["properties"], "lit", by decide⟩, .bool true⟩
  ⟨⟨"light", .atom (.tag "door"), echo, .mutate [light]⟩, 0⟩

/-- A rule that ends them. -/
def echoEnd : ActiveRule := ⟨⟨"end", .atom (.tag "door"), echo, .deactivate⟩, 0⟩

def echoRules : RuleBook := ⟨.new 0, ⟨[echoLight, echoEnd], 2, 0⟩⟩

theorem run_accounts_for_survivors_echoRules :
    let d : Driver := new .standard 3
    let p : Pass := ⟨d.begin doorStore.capacity 0, doorStore, {}, {}⟩
    let p' := Pass.runRule doorSelectors p echoLight
    let whole := d.run 0 echoRules doorSelectors doorStore {}
    whole.report.rulesRun + whole.report.rulesSkipped = 2 ∧
      (∃ refusals : List Failure,
        p'.report.entitiesWritten + p'.report.staleSkips + refusals.length = 3 ∧
          ∀ e ∈ refusals, ∃ message, e = .conversion "_index" message) ∧
      whole.store.isActive 1 = false := by
  intro d p p' whole
  have hcount : ((p.filter doorSelectors echoLight).2.toOption.getD []).countP (!·.isNull) = 3 := by
    decide +kernel
  have hnamed : 1 ∈ Plain.named p'.store
      ((p'.filter doorSelectors echoEnd).2.toOption.getD []) := by
    decide +kernel
  obtain ⟨hrules, hsplit⟩ :=
    run_accounts_for_survivors d 0 echoRules doorSelectors doorStore {}
  obtain ⟨-, -, hlight⟩ := hsplit [] echoLight [echoEnd] rfl
  obtain ⟨-, -, hend⟩ := hsplit [echoLight] echoEnd [] rfl
  refine ⟨hrules, ?_, ?_⟩
  · cases hok : (p.filter doorSelectors echoLight).2 with
    | error e =>
        rw [hok] at hcount
        cases hcount
    | ok survivors =>
        rw [hok] at hcount
        obtain ⟨-, hmutate, -⟩ := hlight survivors hok
        obtain ⟨-, -, hall, hindex⟩ := hmutate _ rfl
        exact ⟨_, hall.trans ((Nat.zero_add _).trans hcount), hindex⟩
  · cases hok : (p'.filter doorSelectors echoEnd).2 with
    | error e =>
        rw [hok] at hnamed
        cases hnamed
    | ok survivors =>
        rw [hok] at hnamed
        obtain ⟨-, -, hdeactivate⟩ := hend survivors hok
        exact (hdeactivate rfl).2 1 hnamed

end Driver
end EntityRules
