import EntityRules.Config
import EntityRules.Proofs.Document.Edits
import EntityRules.Proofs.Rule.Changes

/-!
# The single changes of an engine

The core of an engine is its store, its active rules and its registry of selectors.  Whatever an
engine does changes its core by single changes of three sorts: an operation on the store, an
operation on the active rules, and an operation on selectors and events that leaves the
references.  `Leads P` says that changes with the property `P` lead from one core to another.

The invariant of a core collects those of its parts: the sets of the selectors follow the store,
the references account for the rules, the pools divide the slots, and the capacities are those
of the configuration.

**Results.**
* `Core.Sound.perform`: what one change preserves.
* `Core.Leads.preserves`, `Core.Sound.leads`: what many changes preserve.
-/

namespace EntityRules

/-- The capacities, the store, the active rules and the registry of an engine. -/
structure Core where
  config : Config
  store : Store
  book : RuleBook
  registry : Registry

/-- A single change of a core. -/
inductive CoreAction where
  | store (a : StoreAction)
  | rules (a : RuleAction)
  | events (a : RegistryAction) (ha : a.Observes)

/-- The changes of the store and of the rules. -/
def CoreAction.Plain : CoreAction → Prop
  | .events _ _ => False
  | _ => True

/-- Whether an operation on the store activates an entity or edits one. -/
def StoreAction.Builds : StoreAction → Prop
  | .activate _ => True
  | a => ∃ e, a.Edits e

/-- The changes that activate or edit an entity or activate a rule. -/
def CoreAction.Builds : CoreAction → Prop
  | .store a => a.Builds
  | .rules (.activate _ _) => True
  | _ => False

theorem CoreAction.Builds.plain {a : CoreAction} (h : a.Builds) : a.Plain := by
  cases a with
  | store a => trivial
  | rules a => trivial
  | events a ha => exact h.elim

namespace Core

/-- The rules of a core and the registry of their selectors, without diagnostics. -/
def ledger (c : Core) : Ledger := ⟨c.book, c.registry, {}⟩

/-- One change. -/
def perform (c : Core) : CoreAction → Core
  | .store a => { c with store := c.store.perform a }
  | .rules a =>
    { c with book := (c.ledger.perform a).book, registry := (c.ledger.perform a).registry }
  | .events a _ => { c with registry := c.registry.perform c.store a }

/-- Changes with a property lead from one core to another. -/
inductive Leads (P : CoreAction → Prop) : Core → Core → Prop
  | refl (c : Core) : Leads P c c
  | step {c d : Core} {a : CoreAction} : P a → Leads P (c.perform a) d → Leads P c d

variable {P Q : CoreAction → Prop} {c d e : Core} {a : CoreAction}

section Paths

theorem Leads.single (c : Core) (ha : P a) : Leads P c (c.perform a) :=
  .step ha (.refl _)

theorem Leads.trans (hcd : Leads P c d) (hde : Leads P d e) : Leads P c e := by
  induction hcd with
  | refl _ => exact hde
  | step ha _ ih => exact .step ha (ih hde)

theorem Leads.mono (hPQ : ∀ a, P a → Q a) (h : Leads P c d) : Leads Q c d := by
  induction h with
  | refl c => exact .refl c
  | step ha _ ih => exact .step (hPQ _ ha) ih

/-- What each change preserves is preserved all along. -/
theorem Leads.preserves {I : Core → Prop} (hI : ∀ c a, P a → I c → I (c.perform a))
    (h : Leads P c d) (hc : I c) : I d := by
  induction h with
  | refl _ => exact hc
  | step ha _ ih => exact ih (hI _ _ ha hc)

/-- Operations on the store, one after another. -/
theorem leads_store (c : Core) {actions : List StoreAction} (hP : ∀ a ∈ actions, P (.store a)) :
    Leads P c { c with store := actions.foldl Store.perform c.store } := by
  induction actions generalizing c with
  | nil => exact .refl c
  | cons a actions ih =>
      obtain ⟨ha, hrest⟩ := List.forall_mem_cons.mp hP
      exact .step ha (ih (c.perform (.store a)) hrest)

theorem Leads.config_eq (h : Leads P c d) : d.config = c.config := by
  refine h.preserves (I := fun d => d.config = c.config) ?_ rfl
  intro c' a _ hc'
  cases a with
  | store a => exact hc'
  | rules a => exact hc'
  | events a ha => exact hc'

/-- Building ends no entity. -/
theorem Leads.isActive_of_builds (h : Leads CoreAction.Builds c d) {e : Nat}
    (he : c.store.isActive e = true) : d.store.isActive e = true := by
  refine h.preserves (I := fun d => d.store.isActive e = true) ?_ he
  intro c' a ha hc'
  cases a with
  | rules a => exact hc'
  | events a _ => exact ha.elim
  | store a =>
      cases a with
      | activate pool =>
          rcases c'.store.activate_cases pool with ⟨_, heq⟩ | ⟨p, f, _, heq⟩
          · simpa [perform, Store.perform, heq] using hc'
          · simp only [perform, Store.perform, heq, Store.isActive, Store.slot_bump,
              Store.slot_setSlot, Store.slot_setPool]
            split
            · rfl
            · exact hc'
      | deactivate i =>
          obtain ⟨_, hi⟩ := ha
          exact hi.elim
      | resetScene =>
          obtain ⟨_, hi⟩ := ha
          exact hi.elim
      | insert | modify | remove | getOrInsert =>
          obtain ⟨i, hi⟩ := ha
          exact ((Store.sameActivity_perform c'.store hi).active e).trans hc'

end Paths

section Invariant

/-- What every change preserves. -/
structure Sound (c : Core) : Prop where
  watch : ∃ marks, Watch.Sound ⟨c.store, c.registry, marks⟩
  balanced : c.ledger.Balanced
  consistent : c.store.Consistent c.config.globalEntities.toNat c.config.sceneEntities.toNat
  slots : c.registry.capacity = c.config.maxSelectors
  globalRules : c.book.global.capacity = c.config.globalRules
  sceneRules : c.book.scene.capacity = c.config.sceneRules

theorem sound_new (config : Config) :
    Sound ⟨config, .new config.globalEntities config.sceneEntities,
      .new config.globalRules config.sceneRules,
      .new config.maxSelectors
        (Store.new config.globalEntities config.sceneEntities).capacity⟩ where
  watch := ⟨[], Watch.sound_new config.globalEntities config.sceneEntities config.maxSelectors⟩
  balanced := Ledger.balanced_new _ _ _ _ {}
  consistent := Store.consistent_new _ _
  slots := by simp [Registry.new, Registry.capacity, Column.ofSize, Column.size]
  globalRules := rfl
  sceneRules := rfl

/-- The sets of the selectors follow the store through operations on the registry. -/
theorem watch_performAll {s : Store} {r : Registry} (h : ∃ marks, Watch.Sound ⟨s, r, marks⟩)
    (actions : List RegistryAction) : ∃ marks, Watch.Sound ⟨s, r.performAll s actions, marks⟩ := by
  induction actions generalizing r with
  | nil => exact h
  | cons a actions ih =>
      obtain ⟨marks, hsound⟩ := h
      exact ih ⟨_, hsound.step (.registry a)⟩

/-- What one change preserves. -/
theorem Sound.perform (h : c.Sound) (a : CoreAction) : (c.perform a).Sound := by
  cases a with
  | store a =>
      obtain ⟨marks, hwatch⟩ := h.watch
      exact ⟨⟨marks, hwatch.step (.store a)⟩, h.balanced, h.consistent.perform a, h.slots,
        h.globalRules, h.sceneRules⟩
  | rules a =>
      obtain ⟨changes, _, hchanges⟩ := c.ledger.registry_perform a
      have hregistry : (c.perform (.rules a)).registry =
          c.registry.performAll c.store changes := hchanges c.store
      have hbalanced := h.balanced.perform a
      refine ⟨?_, ⟨hbalanced.accounts, hbalanced.fits⟩, h.consistent, ?_, ?_, ?_⟩
      · rw [hregistry]
        exact watch_performAll h.watch changes
      · rw [hregistry, Registry.capacity_performAll]
        exact h.slots
      · exact (c.ledger.capacity_perform a .global).trans h.globalRules
      · exact (c.ledger.capacity_perform a .scene).trans h.sceneRules
  | events a ha =>
      obtain ⟨marks, hwatch⟩ := h.watch
      have hsame := Registry.sameReferences_perform c.registry c.store ha
      exact ⟨⟨_, hwatch.step (.registry a)⟩, ⟨h.balanced.accounts.observe hsame, h.balanced.fits⟩,
        h.consistent, (c.registry.capacity_perform c.store a).trans h.slots, h.globalRules,
        h.sceneRules⟩

theorem Sound.leads (h : c.Sound) (hcd : Leads P c d) : d.Sound :=
  hcd.preserves (fun _ a _ hc => hc.perform a) h

end Invariant

end Core
end EntityRules
