import EntityRules.Proofs.Selector.History
import EntityRules.Proofs.Selector.Registry

/-!
# A registry of selectors over a changing store

A watch is a store and a registry of selectors over it, together with the history of events.
Its runs interleave the operations of both in any order.

Three invariants carry the results.  `Sized`: every set has room for the slots of the store and
counts its members.  `Records`: the two sets of events are those that wait and that live by the
history.  `UpToDate`: when the revision of the store is the one last seen, no selector is new
and no event lives, then every set already is what a match would make it.

**Results.**
* `Sized.perform`, `Records.perform`, `UpToDate.perform`: what one operation preserves.
* `Reached.sound`: what every run preserves.
-/

namespace EntityRules

/-- An operation on tracked selectors. -/
inductive RegistryAction where
  | track (selector : Selector)
  | release (slot : Nat)
  | pulse (kind : EventKind) (e : Nat)
  | recalculate
  | rematch
  | refresh
  | dropStaleEvents

/-- What a match would make of a set is there already. -/
def Tracked.Shows (s : Store) (v : Events) (t : Tracked) : Prop :=
  (t.rematch s v).found = t.found

theorem Tracked.Shows.rematch_eq {s : Store} {v : Events} {t : Tracked} (h : t.Shows s v) :
    t.rematch s v = t := by
  obtain ⟨selector, refs, found⟩ := t
  exact congrArg (Tracked.mk selector refs) h

namespace Registry

/-- The registry after an operation over a store. -/
def perform (r : Registry) (s : Store) : RegistryAction → Registry
  | .track selector => (r.track selector).1
  | .release slot => r.release slot
  | .pulse kind e => r.pulse kind e
  | .recalculate => r.recalculate s
  | .rematch => r.rematch s
  | .refresh => (r.refresh s).1
  | .dropStaleEvents => r.dropStaleEvents s

/-- The marks that an operation leaves in the history. -/
def marksOf (r : Registry) (s : Store) : RegistryAction → List Mark
  | .pulse kind e => [.pulse kind e]
  | .recalculate => [.recalculation]
  | .refresh => if r.isFresh s then [] else [.recalculation]
  | .dropStaleEvents => [.drop s.isActive]
  | _ => []

variable {r r' : Registry} {s t : Store} {marks : List Mark}

section References

/-- What tracking and releasing leave as it was: all but the slots, among which only those of
new selectors have new sets. -/
structure Kept (r r' : Registry) : Prop where
  entityCapacity : r'.entityCapacity = r.entityCapacity
  pending : r'.pending = r.pending
  events : r'.events = r.events
  seenRevision : r'.seenRevision = r.seenRevision
  pulseLive : r'.pulseLive = r.pulseLive
  newSelectors : r'.newSelectors = false → r.newSelectors = false
  slots : ∀ slot t', r'.slots.get? slot = some t' →
    (∃ t, r.slots.get? slot = some t ∧ t'.selector = t.selector ∧ t'.found = t.found) ∨
      (t'.found = .withCapacity r.entityCapacity ∧ r'.newSelectors = true)

theorem Kept.refl (r : Registry) : Kept r r :=
  ⟨rfl, rfl, rfl, rfl, rfl, id, fun _ t h => Or.inl ⟨t, h, rfl, rfl⟩⟩

/-- A change of the number of references. -/
theorem kept_setRefs {slot : Nat} {t : Tracked} (ht : r.slots.get? slot = some t) (refs : Nat) :
    Kept r { r with slots := r.slots.set slot (some { t with refs }) } where
  entityCapacity := rfl
  pending := rfl
  events := rfl
  seenRevision := rfl
  pulseLive := rfl
  newSelectors := id
  slots i t' h := by
    left
    rcases Column.get?_set_cases h with ⟨rfl, hvalue⟩ | ⟨_, hold⟩
    · obtain rfl := Option.some.inj hvalue
      exact ⟨t, ht, rfl, rfl⟩
    · exact ⟨t', hold, rfl, rfl⟩

theorem kept_track (r : Registry) (selector : Selector) : Kept r (r.track selector).1 := by
  rcases r.track_cases selector with ⟨slot, t, _, ht, heq⟩ | ⟨_, ⟨slot, _, heq⟩ | ⟨_, heq⟩⟩
  · rw [heq]
    exact kept_setRefs ht _
  · rw [heq]
    refine ⟨rfl, rfl, rfl, rfl, rfl, fun h => Bool.noConfusion h, fun i t' h => ?_⟩
    rcases Column.get?_set_cases h with ⟨_, hvalue⟩ | ⟨_, hold⟩
    · obtain rfl := Option.some.inj hvalue
      exact Or.inr ⟨rfl, rfl⟩
    · exact Or.inl ⟨t', hold, rfl, rfl⟩
  · rw [heq]
    exact Kept.refl r

theorem kept_release (r : Registry) (slot : Nat) : Kept r (r.release slot) := by
  rcases r.release_cases slot with ⟨_, heq⟩ | ⟨t, ht, ⟨_, heq⟩ | ⟨_, heq⟩⟩
  · rw [heq]
    exact Kept.refl r
  · rw [heq]
    refine ⟨rfl, rfl, rfl, rfl, rfl, id, fun i t' h => ?_⟩
    rcases Column.get?_set_cases h with ⟨_, hvalue⟩ | ⟨_, hold⟩
    · nomatch hvalue
    · exact Or.inl ⟨t', hold, rfl, rfl⟩
  · rw [heq]
    exact kept_setRefs ht _

end References

section Sizes

/-- Every set has room for the slots of the store, and the sets of events count their members. -/
structure Sized (r : Registry) : Prop where
  pending : r.pending.Sized r.entityCapacity
  events : r.events.Sized r.entityCapacity
  found : ∀ slot t, r.slots.get? slot = some t →
    t.found.words = (EntitySet.withCapacity r.entityCapacity).words

theorem sized_new (slots n : Nat) : (Registry.new slots n).Sized where
  pending := Events.sized_withCapacity n
  events := Events.sized_withCapacity n
  found slot t h := by simp [Registry.new] at h

theorem Sized.kept (h : r.Sized) (hk : Kept r r') : r'.Sized where
  pending := by
    rw [hk.pending, hk.entityCapacity]
    exact h.pending
  events := by
    rw [hk.events, hk.entityCapacity]
    exact h.events
  found slot t' ht' := by
    rw [hk.entityCapacity]
    rcases hk.slots slot t' ht' with ⟨t, ht, _, hfound⟩ | ⟨hfound, _⟩
    · rw [hfound]
      exact h.found slot t ht
    · rw [hfound]

theorem Sized.advance (h : r.Sized) : r.advance.Sized :=
  ⟨h.events.clear, h.pending, h.found⟩

theorem Sized.rematch (h : r.Sized) (s : Store) : (r.rematch s).Sized := by
  refine ⟨h.pending, h.events, fun slot t ht => ?_⟩
  rw [get?_rematch] at ht
  obtain ⟨old, hold, rfl⟩ := Option.map_eq_some_iff.mp ht
  exact (Tracked.words_rematch s _ old).trans (h.found slot old hold)

theorem Sized.perform (h : r.Sized) (s : Store) (a : RegistryAction) :
    (r.perform s a).Sized := by
  cases a with
  | track selector => exact h.kept (kept_track r selector)
  | release slot => exact h.kept (kept_release r slot)
  | pulse kind e => exact ⟨h.pending.insert kind e, h.events, h.found⟩
  | recalculate => exact h.advance.rematch s
  | rematch => exact h.rematch s
  | refresh =>
      simp only [Registry.perform, refresh]
      split
      · exact h
      · exact h.advance.rematch s
  | dropStaleEvents => exact ⟨h.pending.retain _, h.events.retain _, h.found⟩

theorem entityCapacity_perform (r : Registry) (s : Store) (a : RegistryAction) :
    (r.perform s a).entityCapacity = r.entityCapacity := by
  cases a with
  | track selector => exact (kept_track r selector).entityCapacity
  | release slot => exact (kept_release r slot).entityCapacity
  | pulse kind e => rfl
  | recalculate => rfl
  | rematch => rfl
  | refresh =>
      simp only [perform, refresh]
      split <;> rfl
  | dropStaleEvents => rfl

end Sizes

section Histories

/-- The sets of events are those that wait and those that live by the history. -/
structure Records (r : Registry) (marks : List Mark) : Prop where
  waits : ∀ kind e, e < r.entityCapacity →
    ((r.pending.get kind).contains e = true ↔ Mark.Waits marks kind e)
  lives : ∀ kind e, e < r.entityCapacity →
    ((r.events.get kind).contains e = true ↔ Mark.Lives marks kind e)

theorem records_new (slots n : Nat) : (Registry.new slots n).Records [] where
  waits kind e _ := by simp [Registry.new]
  lives kind e _ := by simp [Registry.new]

theorem Records.kept (h : r.Records marks) (hk : Kept r r') : r'.Records marks where
  waits kind e he := by
    rw [hk.pending]
    exact h.waits kind e (hk.entityCapacity ▸ he)
  lives kind e he := by
    rw [hk.events]
    exact h.lives kind e (hk.entityCapacity ▸ he)

theorem Records.pulse (h : r.Records marks) (hs : r.Sized) (kind : EventKind) (e : Nat) :
    (r.pulse kind e).Records (.pulse kind e :: marks) where
  waits kind' e' he' := by
    have hroom := hs.pending.lt_bound kind' he'
    rw [Mark.waits_pulse, ← h.waits kind' e' he', Registry.pulse, Events.get_insert]
    split
    · next hkind =>
        rw [EntitySet.contains_insert]
        constructor
        · rintro (hold | ⟨rfl, _⟩)
          · exact Or.inr hold
          · exact Or.inl ⟨hkind, rfl⟩
        · rintro (⟨_, rfl⟩ | hold)
          · exact Or.inr ⟨rfl, hroom⟩
          · exact Or.inl hold
    · next hkind =>
        exact ⟨Or.inr, fun hor => hor.resolve_left fun hnew => hkind hnew.1⟩
  lives kind' e' he' := by
    rw [Mark.lives_pulse]
    exact h.lives kind' e' he'

/-- The waiting events live after a recalculation, and none waits. -/
theorem Records.recalculate (h : r.Records marks) (s : Store) :
    (r.recalculate s).Records (.recalculation :: marks) where
  waits kind e _ := by
    have hclear : (r.recalculate s).pending = r.events.clear := rfl
    simp [hclear]
  lives kind e he := by
    rw [Mark.lives_recalculation]
    exact h.waits kind e he

theorem Records.dropStaleEvents (h : r.Records marks) (s : Store) :
    (r.dropStaleEvents s).Records (.drop s.isActive :: marks) where
  waits kind e he := by
    rw [Registry.dropStaleEvents, Events.get_retain, EntitySet.contains_retain, Mark.waits_drop,
      Bool.and_eq_true, h.waits kind e he, and_comm]
  lives kind e he := by
    rw [Registry.dropStaleEvents, Events.get_retain, EntitySet.contains_retain, Mark.lives_drop,
      Bool.and_eq_true, h.lives kind e he, and_comm]

theorem Records.perform (h : r.Records marks) (hs : r.Sized) (s : Store) (a : RegistryAction) :
    (r.perform s a).Records (r.marksOf s a ++ marks) := by
  cases a with
  | track selector => exact h.kept (kept_track r selector)
  | release slot => exact h.kept (kept_release r slot)
  | pulse kind e => exact h.pulse hs kind e
  | recalculate => exact h.recalculate s
  | rematch => exact ⟨h.waits, h.lives⟩
  | refresh =>
      simp only [Registry.perform, refresh, marksOf]
      split
      · exact h
      · exact h.recalculate s
  | dropStaleEvents => exact h.dropStaleEvents s

end Histories

section Freshness

/-- When the revision last seen is that of the store, no selector is new and no event lives,
every set is what a match would make it. -/
structure UpToDate (r : Registry) (s : Store) : Prop where
  seen : ∀ n, r.seenRevision = some n → n ≤ s.revision
  quiet : r.pulseLive = false → r.events.Quiet
  shown : r.seenRevision = some s.revision → r.newSelectors = false → r.pulseLive = false →
    ∀ slot t, r.slots.get? slot = some t → t.Shows s r.events

theorem upToDate_new (slots n : Nat) (s : Store) : (Registry.new slots n).UpToDate s where
  seen _ h := by simp [Registry.new] at h
  quiet _ kind e := by simp [Registry.new]
  shown h := by simp [Registry.new] at h

/-- A change of the store that selectors can see moves its revision past the one last seen. -/
theorem UpToDate.follows (h : r.UpToDate s) (hf : Store.Follows s t) : r.UpToDate t where
  seen n hn := Nat.le_trans (h.seen n hn) hf.revision_le
  quiet := h.quiet
  shown hrev hnew hlive slot tracked ht := by
    have hle := h.seen t.revision hrev
    have heq : t.revision = s.revision := Nat.le_antisymm hle hf.revision_le
    have hold := h.shown (heq ▸ hrev) hnew hlive slot tracked ht
    rw [Tracked.Shows, Tracked.rematch_congr (hf.same heq) (fun _ _ => rfl)]
    exact hold

theorem UpToDate.kept (h : r.UpToDate s) (hk : Kept r r') : r'.UpToDate s where
  seen n hn := h.seen n (hk.seenRevision ▸ hn)
  quiet hlive := by
    rw [hk.events]
    exact h.quiet (hk.pulseLive ▸ hlive)
  shown hrev hnew hlive slot t' ht' := by
    rw [hk.events]
    rcases hk.slots slot t' ht' with ⟨t, ht, hselector, hfound⟩ | ⟨_, hnew'⟩
    · have hold := h.shown (hk.seenRevision ▸ hrev) (hk.newSelectors hnew)
        (hk.pulseLive ▸ hlive) slot t ht
      simp only [Tracked.Shows, Tracked.rematch, hselector, hfound] at hold ⊢
      exact hold
    · rw [hnew] at hnew'
      exact Bool.noConfusion hnew'

/-- Just after a match every set is what a match would make it. -/
theorem shows_rematch {slot : Nat} {t : Tracked}
    (ht : (r.rematch s).slots.get? slot = some t) : t.Shows s r.events := by
  rw [get?_rematch] at ht
  obtain ⟨old, _, rfl⟩ := Option.map_eq_some_iff.mp ht
  rw [Tracked.Shows, Tracked.rematch_rematch]

theorem UpToDate.rematch (hquiet : r.pulseLive = false → r.events.Quiet) (s : Store) :
    (r.rematch s).UpToDate s where
  seen _ hn := Nat.le_of_eq (Option.some.inj hn).symm
  quiet := hquiet
  shown _ _ _ _ _ ht := shows_rematch (r := r) ht

theorem UpToDate.recalculate (hs : r.Sized) (s : Store) : (r.recalculate s).UpToDate s := by
  refine UpToDate.rematch (fun hlive => ?_) s
  have hempty : r.pending.isEmpty = true := by
    simpa [advance] using hlive
  exact hs.pending.isEmpty_iff_quiet.mp hempty

theorem UpToDate.dropStaleEvents (h : r.UpToDate s) : (r.dropStaleEvents s).UpToDate s := by
  have hnone : r.pulseLive = false → (r.dropStaleEvents s).events.Quiet := by
    intro hlive kind e
    rw [Registry.dropStaleEvents, Events.get_retain, EntitySet.contains_retain,
      h.quiet hlive kind e, Bool.false_and]
  refine ⟨h.seen, hnone, fun hrev hnew hlive slot t ht => ?_⟩
  -- without living events there was nothing to drop
  have hsame : ∀ kind e, (((r.dropStaleEvents s).events.get kind).contains e) =
      (r.events.get kind).contains e := fun kind e => by
    rw [hnone hlive kind e, h.quiet hlive kind e]
  rw [Tracked.Shows, Tracked.rematch_congr (Store.SameSelection.refl s) hsame]
  exact h.shown hrev hnew hlive slot t ht

theorem UpToDate.perform (h : r.UpToDate s) (hs : r.Sized) (a : RegistryAction) :
    (r.perform s a).UpToDate s := by
  cases a with
  | track selector => exact h.kept (kept_track r selector)
  | release slot => exact h.kept (kept_release r slot)
  | pulse kind e => exact ⟨h.seen, h.quiet, h.shown⟩
  | recalculate => exact UpToDate.recalculate hs s
  | rematch => exact UpToDate.rematch h.quiet s
  | refresh =>
      simp only [Registry.perform, refresh]
      split
      · exact h
      · exact UpToDate.recalculate hs s
  | dropStaleEvents => exact h.dropStaleEvents

end Freshness

end Registry

/-! ## Runs -/

/-- A store, a registry of selectors over it, and the history of events, the latest mark
first. -/
structure Watch where
  store : Store
  registry : Registry
  marks : List Mark

/-- An operation on the store or on the registry. -/
inductive WatchAction where
  | store (a : StoreAction)
  | registry (a : RegistryAction)

namespace Watch

/-- A new store and a new registry of its size. -/
def new (global scene : UInt32) (slots : Nat) : Watch :=
  let store := Store.new global scene
  ⟨store, Registry.new slots store.capacity, []⟩

/-- One operation. -/
def step (w : Watch) : WatchAction → Watch
  | .store a => { w with store := w.store.perform a }
  | .registry a =>
    ⟨w.store, w.registry.perform w.store a, w.registry.marksOf w.store a ++ w.marks⟩

/-- Operations one after another. -/
def run (w : Watch) (actions : List WatchAction) : Watch := actions.foldl step w

/-- The watches that runs of operations reach. -/
inductive Reached : Watch → Prop
  | new (global scene : UInt32) (slots : Nat) : Reached (new global scene slots)
  | step {w : Watch} (a : WatchAction) : Reached w → Reached (w.step a)

theorem Reached.run {w : Watch} (hw : w.Reached) (actions : List WatchAction) :
    (w.run actions).Reached := by
  induction actions generalizing w with
  | nil => exact hw
  | cons a actions ih => exact ih (hw.step a)

/-- What every run preserves. -/
structure Sound (w : Watch) : Prop where
  capacity : w.registry.entityCapacity = w.store.capacity
  sized : w.registry.Sized
  records : w.registry.Records w.marks
  upToDate : w.registry.UpToDate w.store

theorem sound_new (global scene : UInt32) (slots : Nat) : (new global scene slots).Sound where
  capacity := rfl
  sized := Registry.sized_new _ _
  records := Registry.records_new _ _
  upToDate := Registry.upToDate_new _ _ _

theorem Sound.step {w : Watch} (h : w.Sound) (a : WatchAction) : (w.step a).Sound := by
  cases a with
  | store a =>
      have hf := Store.follows_perform w.store a
      exact ⟨h.capacity.trans hf.capacity.symm, h.sized, h.records, h.upToDate.follows hf⟩
  | registry a =>
      exact ⟨(Registry.entityCapacity_perform w.registry w.store a).trans h.capacity,
        h.sized.perform w.store a, h.records.perform h.sized w.store a,
        h.upToDate.perform h.sized a⟩

theorem Reached.sound {w : Watch} (hw : w.Reached) : w.Sound := by
  induction hw with
  | new global scene slots => exact sound_new global scene slots
  | step a _ ih => exact ih.step a

end Watch
end EntityRules
