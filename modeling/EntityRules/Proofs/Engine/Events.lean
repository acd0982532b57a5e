import EntityRules.Proofs.Engine.Runs
import EntityRules.Proofs.Selector.MatchSets

/-!
# Collision events in the core of an engine

An event waits from its pulse to the next recalculation and lives from there to the one after.
The store and the rules have no bearing on events, so what becomes of an event is decided by
the changes of the third sort alone.

**Results.**
* `Watch.Sound.events_refresh`: after a refresh the events that waited live.
* `Core.Leads.waiting`, `Core.Leads.not_waiting`, `Core.Leads.not_noted`: which changes keep an
  event waiting, and which bring none back.
* `Core.Sound.seen`: the sets that the pass of the next step finds.
-/

namespace EntityRules

/-! ## Events in a core -/

namespace Watch

variable {w : Watch}

/-- After a refresh the events that waited live, also when nothing had to be done. -/
theorem Sound.events_refresh (h : w.Sound) (kind : EventKind) (e : Nat) :
    ((w.registry.refresh w.store).1.events.get kind).contains e =
      (w.registry.pending.get kind).contains e := by
  cases hfresh : w.registry.isFresh w.store with
  | true =>
      simp only [Registry.refresh, hfresh, if_true]
      exact ((h.of_isFresh hfresh).2 kind e).symm
  | false =>
      simp only [Registry.refresh, hfresh]
      rfl

/-- After a refresh no event waits. -/
theorem Sound.quiet_refresh (h : w.Sound) : (w.registry.refresh w.store).1.pending.Quiet := by
  cases hfresh : w.registry.isFresh w.store with
  | true =>
      simp only [Registry.refresh, hfresh, if_true]
      exact h.sized.pending.isEmpty_iff_quiet.mp (Registry.isFresh_iff.mp hfresh).2.2.2
  | false =>
      intro kind e
      have hclear : (w.registry.recalculate w.store).pending = w.registry.events.clear := rfl
      simp [Registry.refresh, hfresh, hclear]

/-- After a refresh every set shows the present. -/
theorem Sound.shows_refresh (h : w.Sound) {slot : Nat} {t : Tracked}
    (ht : (w.registry.refresh w.store).1.slots.get? slot = some t) :
    t.Shows w.store (w.registry.refresh w.store).1.events := by
  cases hfresh : w.registry.isFresh w.store with
  | true =>
      simp only [Registry.refresh, hfresh, if_true] at ht ⊢
      exact (h.of_isFresh hfresh).1 slot t ht
  | false =>
      simp only [Registry.refresh, hfresh] at ht ⊢
      exact Registry.shows_rematch (r := w.registry.advance) ht

end Watch

namespace Registry

/-- An event waits for the next recalculation. -/
def Waiting (r : Registry) (kind : EventKind) (e : Nat) : Prop :=
  (r.pending.get kind).contains e = true

/-- An event waits or lives. -/
def Noted (r : Registry) (kind : EventKind) (e : Nat) : Prop :=
  r.Waiting kind e ∨ (r.events.get kind).contains e = true

variable {r : Registry} {s : Store} {kind : EventKind} {e : Nat}

theorem waiting_pulse (hsized : r.Sized) (he : e < r.entityCapacity) :
    (r.pulse kind e).Waiting kind e := by
  have hroom := hsized.pending.lt_bound kind he
  rw [Waiting, pulse, Events.get_insert, if_pos rfl, EntitySet.contains_insert]
  exact Or.inr ⟨rfl, hroom⟩

/-- A waiting event waits on, unless there is a recalculation or its entity is not active when
the stale events are dropped. -/
theorem Waiting.perform (h : r.Waiting kind e) {a : RegistryAction} (ha : a.Observes)
    (hrecalculate : a ≠ .recalculate) (hrefresh : a ≠ .refresh)
    (hdrop : a = .dropStaleEvents → s.isActive e = true) :
    (r.perform s a).Waiting kind e := by
  cases a with
  | track selector => exact ha.elim
  | release slot => exact ha.elim
  | pulse other i =>
      simp only [Registry.perform, Waiting, pulse, Events.get_insert]
      split
      · rw [EntitySet.contains_insert]
        exact Or.inl h
      · exact h
  | recalculate => exact absurd rfl hrecalculate
  | rematch => exact h
  | refresh => exact absurd rfl hrefresh
  | dropStaleEvents =>
      simp only [Registry.perform, Waiting, dropStaleEvents, Events.get_retain,
        EntitySet.contains_retain, Bool.and_eq_true]
      exact ⟨h, hdrop rfl⟩

/-- An event that does not wait is not made to wait, unless by a pulse of its own. -/
theorem waiting_of_perform {a : RegistryAction} (ha : a.Observes) (hpulse : a ≠ .pulse kind e)
    (h : (r.perform s a).Waiting kind e) : r.Waiting kind e := by
  cases a with
  | track selector => exact ha.elim
  | release slot => exact ha.elim
  | pulse other i =>
      simp only [Registry.perform, Waiting, pulse, Events.get_insert] at h
      split at h
      · next hkind =>
          rw [EntitySet.contains_insert] at h
          rcases h with h | ⟨hi, _⟩
          · exact h
          · exact absurd (by rw [hkind, hi]) hpulse
      · exact h
  | recalculate =>
      have hclear : (r.recalculate s).pending = r.events.clear := rfl
      simp [Registry.perform, Waiting, hclear] at h
  | rematch => exact h
  | refresh =>
      simp only [Registry.perform, refresh] at h
      split at h
      · exact h
      · have hclear : (r.recalculate s).pending = r.events.clear := rfl
        simp [Waiting, hclear] at h
  | dropStaleEvents =>
      simp only [Registry.perform, Waiting, dropStaleEvents, Events.get_retain,
        EntitySet.contains_retain, Bool.and_eq_true] at h
      exact h.1

/-- An event that is not noted is not noted afterwards, unless by a pulse of its own. -/
theorem noted_of_perform {a : RegistryAction} (ha : a.Observes) (hpulse : a ≠ .pulse kind e)
    (h : (r.perform s a).Noted kind e) : r.Noted kind e := by
  rcases h with hwaits | hlives
  · exact Or.inl (waiting_of_perform ha hpulse hwaits)
  · cases a with
    | track selector => exact ha.elim
    | release slot => exact ha.elim
    | pulse other i => exact Or.inr hlives
    | recalculate => exact Or.inl hlives
    | rematch => exact Or.inr hlives
    | refresh =>
        simp only [Registry.perform, refresh] at hlives
        split at hlives
        · exact Or.inr hlives
        · exact Or.inl hlives
    | dropStaleEvents =>
        simp only [Registry.perform, dropStaleEvents, Events.get_retain,
          EntitySet.contains_retain, Bool.and_eq_true] at hlives
        exact Or.inr hlives.1

/-- When the stale events are dropped, those that stay are of active entities. -/
theorem isActive_of_noted (h : (r.dropStaleEvents s).Noted kind e) : s.isActive e = true := by
  simp only [Noted, Waiting, dropStaleEvents, Events.get_retain, EntitySet.contains_retain,
    Bool.and_eq_true] at h
  rcases h with h | h
  · exact h.2
  · exact h.2

end Registry

namespace CoreAction

/-- The changes that neither let events live nor drop any. -/
def KeepsWaiting : CoreAction → Prop
  | .events a _ => a ≠ .recalculate ∧ a ≠ .refresh ∧ a ≠ .dropStaleEvents
  | _ => True

/-- The changes other than a pulse of one event. -/
def Silent (kind : EventKind) (e : Nat) : CoreAction → Prop
  | .events a _ => a ≠ .pulse kind e
  | _ => True

theorem Builds.keepsWaiting {a : CoreAction} (h : a.Builds) : a.KeepsWaiting := by
  cases a with
  | store a => trivial
  | rules a => trivial
  | events a ha => exact h.elim

theorem Plain.silent {a : CoreAction} (h : a.Plain) (kind : EventKind) (e : Nat) :
    a.Silent kind e := by
  cases a with
  | store a => trivial
  | rules a => trivial
  | events a ha => exact h.elim

end CoreAction

namespace Core

variable {c d : Core} {kind : EventKind} {e : Nat}

/-- The rules and the store have no bearing on events. -/
theorem events_perform (c : Core) {a : CoreAction} (ha : a.Plain) :
    (c.perform a).registry.pending = c.registry.pending ∧
      (c.perform a).registry.events = c.registry.events := by
  cases a with
  | store a => exact ⟨rfl, rfl⟩
  | rules a =>
      obtain ⟨changes, hrefers, hchanges⟩ := c.ledger.registry_perform a
      have hregistry : (c.perform (.rules a)).registry =
          c.registry.performAll c.store changes := hchanges c.store
      rw [hregistry]
      exact c.registry.events_performAll c.store hrefers
  | events a _ => exact ha.elim

theorem waiting_perform_iff {a : CoreAction} (ha : a.Plain) :
    (c.perform a).registry.Waiting kind e ↔ c.registry.Waiting kind e := by
  rw [Registry.Waiting, Registry.Waiting, (c.events_perform ha).1]

/-- What the changes of events preserve of the events is preserved all along. -/
theorem Leads.preserves_events {P : CoreAction → Prop} {I : Events → Events → Prop}
    (hI : ∀ (r : Registry) (s : Store) (a : RegistryAction) (ha : a.Observes),
      P (.events a ha) → I r.pending r.events → I (r.perform s a).pending (r.perform s a).events)
    (h : Leads P c d) (hc : I c.registry.pending c.registry.events) :
    I d.registry.pending d.registry.events := by
  refine h.preserves (I := fun d => I d.registry.pending d.registry.events) ?_ hc
  intro c' a ha hc'
  cases a with
  | store a => exact hc'
  | rules a =>
      obtain ⟨hpending, hevents⟩ := c'.events_perform (a := .rules a) trivial
      rw [hpending, hevents]
      exact hc'
  | events a hobserves => exact hI c'.registry c'.store a hobserves ha hc'

theorem Leads.waiting (h : Leads CoreAction.KeepsWaiting c d)
    (hc : c.registry.Waiting kind e) : d.registry.Waiting kind e := by
  refine h.preserves_events (I := fun pending _ => (pending.get kind).contains e = true) ?_ hc
  intro r s a hobserves ha hwaits
  obtain ⟨hrecalculate, hrefresh, hdrop⟩ := ha
  exact Registry.Waiting.perform hwaits hobserves hrecalculate hrefresh
    fun heq => absurd heq hdrop

theorem Leads.not_waiting (h : Leads (CoreAction.Silent kind e) c d)
    (hc : ¬c.registry.Waiting kind e) : ¬d.registry.Waiting kind e := by
  refine h.preserves_events (I := fun pending _ => ¬(pending.get kind).contains e = true) ?_ hc
  intro r s a hobserves ha hquiet hwaits
  exact hquiet (Registry.waiting_of_perform hobserves ha hwaits)

theorem Leads.not_noted (h : Leads (CoreAction.Silent kind e) c d)
    (hc : ¬c.registry.Noted kind e) : ¬d.registry.Noted kind e := by
  refine h.preserves_events
    (I := fun pending events =>
      ¬((pending.get kind).contains e = true ∨ (events.get kind).contains e = true)) ?_ hc
  intro r s a hobserves ha hquiet hnoted
  exact hquiet (Registry.noted_of_perform hobserves ha hnoted)

/-- The sets that a pass finds: that of an active rule contains the active entities that its
selector selects, by the events that were waiting. -/
theorem Sound.seen (h : c.Sound) {active : ActiveRule} (hactive : active ∈ c.book.toList) :
    ∃ found, (c.registry.refresh c.store).1.found? active.selector = some found ∧
      ∀ e, found.contains e = true ↔
        c.store.isActive e = true ∧
          active.rule.source.selects c.store (c.registry.refresh c.store).1.events e = true := by
  obtain ⟨marks, hwatch⟩ := h.watch
  have hsame := Registry.sameReferences_perform c.registry c.store (a := .refresh) trivial
  have haccounts := h.balanced.accounts.observe hsame
  have hheld := haccounts.held active.hold (List.mem_map_of_mem hactive)
  obtain ⟨t, ht, hselector⟩ := Registry.get?_of_selector? hheld
  have hshows : t.Shows c.store (c.registry.refresh c.store).1.events := hwatch.shows_refresh ht
  have hcontains := (hwatch.step (.registry .refresh)).contains_iff_selects ht hshows
  refine ⟨t.found, ?_, ?_⟩
  · exact (congrArg (Option.map Tracked.found) ht)
  · intro e
    have hsource : t.selector = active.rule.source := hselector
    rw [← hsource]
    exact hcontains e

end Core
end EntityRules
