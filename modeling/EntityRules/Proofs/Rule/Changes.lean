import EntityRules.Proofs.Rule.Book

/-!
# What operations on rules do to selectors

An operation on the active rules tracks and releases selectors and does nothing else to the
registry.  So it has no bearing on events, and no capacity changes.

**Results.**
* `Registry.events_performAll`: tracking and releasing leave the events as they were.
* `Ledger.registry_perform`: every operation on rules tracks and releases selectors.
* `Ledger.capacity_perform`, `Ledger.capacity_registry_perform`: the capacities stay.
-/

namespace EntityRules

section Capacities

variable {r : Registry}

theorem Registry.capacity_track (r : Registry) (selector : Selector) :
    (r.track selector).1.capacity = r.capacity := by
  rcases r.track_cases selector with ⟨slot, t, _, _, heq⟩ | ⟨_, ⟨slot, _, heq⟩ | ⟨_, heq⟩⟩
  · rw [heq]
    exact Column.size_set _ _ _
  · rw [heq]
    exact Column.size_set _ _ _
  · rw [heq]

theorem Registry.capacity_release (r : Registry) (slot : Nat) :
    (r.release slot).capacity = r.capacity := by
  rcases r.release_cases slot with ⟨_, heq⟩ | ⟨t, _, ⟨_, heq⟩ | ⟨_, heq⟩⟩
  · rw [heq]
  · rw [heq]
    exact Column.size_set _ _ _
  · rw [heq]
    exact Column.size_set _ _ _

/-- No operation changes the number of slots for selectors. -/
theorem Registry.capacity_perform (r : Registry) (s : Store) (a : RegistryAction) :
    (r.perform s a).capacity = r.capacity := by
  cases a with
  | track selector => exact r.capacity_track selector
  | release slot => exact r.capacity_release slot
  | pulse kind e => rfl
  | recalculate => exact r.size_slots_recalculate s
  | rematch => exact r.size_slots_rematch s
  | refresh =>
      simp only [Registry.perform, Registry.refresh]
      split
      · rfl
      · exact r.size_slots_recalculate s
  | dropStaleEvents => rfl

end Capacities

/-! ## Operations on rules -/

/-- The operations that take or drop a reference. -/
def RegistryAction.Refers (a : RegistryAction) : Prop := ¬a.Observes

namespace Registry

/-- Operations over one store, one after another. -/
def performAll (r : Registry) (s : Store) (actions : List RegistryAction) : Registry :=
  actions.foldl (fun r a => r.perform s a) r

theorem capacity_performAll (r : Registry) (s : Store) (actions : List RegistryAction) :
    (r.performAll s actions).capacity = r.capacity := by
  induction actions generalizing r with
  | nil => rfl
  | cons a actions ih => exact (ih (r.perform s a)).trans (r.capacity_perform s a)

theorem kept_perform (r : Registry) (s : Store) {a : RegistryAction} (ha : a.Refers) :
    Kept r (r.perform s a) := by
  cases a with
  | track selector => exact kept_track r selector
  | release slot => exact kept_release r slot
  | pulse | recalculate | rematch | refresh | dropStaleEvents => exact absurd trivial ha

/-- References are taken and dropped without a bearing on events. -/
theorem events_performAll (r : Registry) (s : Store) {actions : List RegistryAction}
    (hactions : ∀ a ∈ actions, a.Refers) :
    (r.performAll s actions).pending = r.pending ∧ (r.performAll s actions).events = r.events := by
  induction actions generalizing r with
  | nil => exact ⟨rfl, rfl⟩
  | cons a actions ih =>
      obtain ⟨ha, hrest⟩ := List.forall_mem_cons.mp hactions
      have hkept := kept_perform r s ha
      obtain ⟨hpending, hevents⟩ := ih (r.perform s a) hrest
      exact ⟨hpending.trans hkept.pending, hevents.trans hkept.events⟩

theorem releaseAll_eq (r : Registry) (s : Store) (rules : List ActiveRule) :
    r.releaseAll rules = r.performAll s (rules.map fun active => .release active.selector) := by
  rw [releaseAll, performAll, List.foldl_map]
  rfl

end Registry

namespace RuleBook

variable {b : RuleBook} {partition : Partition} {rule : Rule} {r : Registry}

theorem capacity_setBucket (b : RuleBook) (partition other : Partition) (bucket : Bucket)
    (h : bucket.capacity = (b.bucket partition).capacity) :
    ((b.setBucket partition bucket).bucket other).capacity = (b.bucket other).capacity := by
  cases partition <;> cases other
  · exact h
  · rfl
  · rfl
  · exact h

theorem capacity_activate (b : RuleBook) (partition : Partition) (rule : Rule) (r : Registry)
    (other : Partition) :
    ((b.activate partition rule r).1.bucket other).capacity = (b.bucket other).capacity := by
  rcases b.activate_cases partition rule r with
    ⟨_, e, heq⟩ | ⟨_, ⟨e, _, heq⟩ | ⟨slot, handle, _, heq⟩⟩
  · rw [heq]
  · rw [heq]
  · rw [heq]
    exact b.capacity_setBucket partition other _ rfl

theorem capacity_clear (b : RuleBook) (partition : Partition) (r : Registry)
    (other : Partition) :
    ((b.clear partition r).1.bucket other).capacity = (b.bucket other).capacity :=
  b.capacity_setBucket partition other _ rfl

end RuleBook

namespace Ledger

variable {l : Ledger}

/-- Every operation on rules tracks and releases selectors, and does nothing else to them. -/
theorem registry_perform (l : Ledger) (a : RuleAction) :
    ∃ changes : List RegistryAction, (∀ x ∈ changes, x.Refers) ∧
      ∀ s, (l.perform a).registry = l.registry.performAll s changes := by
  have hactivate (partition : Partition) (rule : Rule) :
      ∃ changes : List RegistryAction, (∀ x ∈ changes, x.Refers) ∧
        ∀ s, (l.book.activate partition rule l.registry).2.1 =
          l.registry.performAll s changes := by
    rcases l.book.activate_cases partition rule l.registry with
      ⟨_, e, heq⟩ | ⟨_, ⟨e, _, heq⟩ | ⟨slot, handle, _, heq⟩⟩
    · exact ⟨[], by simp, fun s => by rw [heq]; rfl⟩
    · exact ⟨[], by simp, fun s => by rw [heq]; rfl⟩
    · refine ⟨[.track rule.source], by simp [RegistryAction.Refers, RegistryAction.Observes], ?_⟩
      intro s
      rw [heq]
      rfl
  have hrelease (rules : List ActiveRule) :
      ∀ x ∈ rules.map fun active => RegistryAction.release active.selector, x.Refers := by
    simp [RegistryAction.Refers, RegistryAction.Observes]
  cases a with
  | activate partition rule => exact hactivate partition rule
  | tryActivate partition rule =>
      simp only [perform, tryActivate_eq]
      exact hactivate partition rule
  | reset =>
      refine ⟨_, hrelease l.book.scene.rules, ?_⟩
      intro s
      exact l.registry.releaseAll_eq s l.book.scene.rules
  | clearAll =>
      refine ⟨_, hrelease (l.book.scene.rules ++ l.book.global.rules), ?_⟩
      intro s
      rw [← Registry.releaseAll_eq, Registry.releaseAll, List.foldl_append]
      rfl

theorem capacity_perform (l : Ledger) (a : RuleAction) (partition : Partition) :
    ((l.perform a).book.bucket partition).capacity = (l.book.bucket partition).capacity := by
  cases a with
  | activate other rule => exact l.book.capacity_activate other rule l.registry partition
  | tryActivate other rule =>
      simp only [perform, tryActivate_eq]
      exact l.book.capacity_activate other rule l.registry partition
  | reset => exact l.book.capacity_clear .scene l.registry partition
  | clearAll =>
      have hscene := l.book.capacity_clear .scene l.registry partition
      have hglobal := (l.book.clear .scene l.registry).1.capacity_clear .global
        (l.book.clear .scene l.registry).2 partition
      exact hglobal.trans hscene

theorem capacity_registry_perform (l : Ledger) (a : RuleAction) :
    (l.perform a).registry.capacity = l.registry.capacity := by
  obtain ⟨changes, _, hchanges⟩ := l.registry_perform a
  rw [hchanges (.new 0 0), Registry.capacity_performAll]

end Ledger
end EntityRules
