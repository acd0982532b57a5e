import EntityRules.Proofs.Entity.Set
import EntityRules.Proofs.Entity.Store
import EntityRules.Selector.Registry

/-!
# What the operations on tracked selectors do

Tracking a selector shares a slot, occupies an empty one or fails; releasing a slot does
nothing, empties the slot or drops one of several references.  Later proofs go by these cases
and do not open the operations.

**Results.**
* `track_cases`, `release_cases`: all that these operations can do.
* `get?_rematch`: every slot is matched anew, and nothing else happens to it.
* `contains_rematch`: what a set contains after a match.
* `rematch_congr`, `rematch_rematch`: on what the outcome of a match depends.
-/

namespace EntityRules

namespace Events

@[simp] theorem get_insert (v : Events) (kind : EventKind) (e : Nat) (other : EventKind) :
    (v.insert kind e).get other =
      if other = kind then (v.get other).insert e else v.get other := by
  cases kind <;> cases other <;> rfl

@[simp] theorem get_clear (v : Events) (kind : EventKind) :
    v.clear.get kind = (v.get kind).clear := by
  cases kind <;> rfl

@[simp] theorem get_retain (v : Events) (keep : Nat → Bool) (kind : EventKind) :
    (v.retain keep).get kind = (v.get kind).retain keep := by
  cases kind <;> rfl

@[simp] theorem get_withCapacity (n : Nat) (kind : EventKind) :
    (withCapacity n).get kind = .withCapacity n := by
  cases kind <;> rfl

theorem isEmpty_iff (v : Events) : v.isEmpty = true ↔ ∀ kind, (v.get kind).isEmpty = true := by
  rw [isEmpty, Bool.and_eq_true]
  constructor
  · rintro ⟨henter, hexit⟩ kind
    cases kind with
    | enter => exact henter
    | exit => exact hexit
  · exact fun h => ⟨h .enter, h .exit⟩

/-- No event of any kind is noted for any entity. -/
def Quiet (v : Events) : Prop := ∀ kind e, (v.get kind).contains e = false

/-- The sets have room for the entities below a capacity and count their members. -/
def Sized (n : Nat) (v : Events) : Prop :=
  ∀ kind, (v.get kind).words = (EntitySet.withCapacity n).words ∧ (v.get kind).Counted

variable {n : Nat} {v : Events}

theorem Sized.isEmpty_iff_quiet (hv : v.Sized n) : v.isEmpty = true ↔ v.Quiet := by
  rw [isEmpty_iff]
  exact forall_congr' fun kind => (hv kind).2.isEmpty_iff

theorem sized_withCapacity (n : Nat) : (withCapacity n).Sized n := fun kind => by
  rw [get_withCapacity]
  exact ⟨rfl, EntitySet.counted_withCapacity n⟩

theorem Sized.insert (hv : v.Sized n) (kind : EventKind) (e : Nat) :
    (v.insert kind e).Sized n := fun other => by
  rw [get_insert]
  split
  · exact ⟨((v.get other).words_insert e).trans (hv other).1, (hv other).2.insert e⟩
  · exact hv other

theorem Sized.clear (hv : v.Sized n) : v.clear.Sized n := fun kind => by
  rw [get_clear]
  exact ⟨(hv kind).1, EntitySet.counted_clear _⟩

theorem Sized.retain (hv : v.Sized n) (keep : Nat → Bool) : (v.retain keep).Sized n :=
  fun kind => by
    rw [get_retain]
    exact ⟨(hv kind).1, EntitySet.counted_retain _ keep⟩

theorem Sized.lt_bound (hv : v.Sized n) (kind : EventKind) {e : Nat} (he : e < n) :
    e < (v.get kind).bound := by
  rw [EntitySet.bound, (hv kind).1]
  exact EntitySet.lt_bound_withCapacity he

end Events

namespace Registry

variable {r : Registry} {selector : Selector} {slot : Nat} {t : Tracked}

section Slots

theorem freeSlot?_eq_some (h : r.freeSlot? = some slot) :
    slot < r.slots.size ∧ r.slots.get? slot = none := by
  have hmem := List.mem_of_find?_eq_some h
  have hfree := List.find?_some h
  simp only [Column.has, Bool.not_eq_true', Option.isSome_eq_false_iff] at hfree
  exact ⟨List.mem_range.mp hmem, Option.isNone_iff_eq_none.mp hfree⟩

theorem freeSlot?_eq_none_iff :
    r.freeSlot? = none ↔ ∀ slot, slot < r.slots.size → (r.slots.get? slot).isSome = true := by
  simp [freeSlot?, List.find?_eq_none, Column.has, Option.isSome_iff_ne_none]

/-- All that tracking can do. -/
theorem track_cases (r : Registry) (selector : Selector) :
    (∃ slot t,
      r.slotOf? selector = some slot ∧
      r.slots.get? slot = some t ∧
      r.track selector =
        ({ r with slots := r.slots.set slot (some { t with refs := t.refs + 1 }) }, .ok slot)) ∨
    (∀ slot, r.slotOf? selector = some slot → r.slots.get? slot = none) ∧
      ((∃ slot,
        r.freeSlot? = some slot ∧
        r.track selector = (r.occupy selector slot, .ok slot)) ∨
      (r.freeSlot? = none ∧
        r.track selector = (r, .error (.capacityExceeded "selector" r.capacity)))) := by
  have hoccupy :
      (∃ slot, r.freeSlot? = some slot ∧
        r.occupyFree selector = (r.occupy selector slot, .ok slot)) ∨
      (r.freeSlot? = none ∧
        r.occupyFree selector = (r, .error (.capacityExceeded "selector" r.capacity))) := by
    cases hfree : r.freeSlot? with
    | some slot => exact Or.inl ⟨slot, rfl, by simp [occupyFree, hfree]⟩
    | none => exact Or.inr ⟨rfl, by simp [occupyFree, hfree]⟩
  cases hslot : r.slotOf? selector with
  | none =>
      right
      refine ⟨fun slot h => by simp at h, ?_⟩
      simpa [track, hslot] using hoccupy
  | some slot =>
      cases hget : r.slots.get? slot with
      | none =>
          right
          refine ⟨fun i h => ?_, ?_⟩
          · obtain rfl := Option.some.inj h
            exact hget
          · simpa [track, hslot, hget] using hoccupy
      | some t =>
          left
          exact ⟨slot, t, rfl, hget, by simp [track, hslot, hget]⟩

/-- Tracking gives a slot or changes nothing. -/
theorem track_ok_or_error (r : Registry) (selector : Selector) :
    (∃ slot, r.track selector = ((r.track selector).1, .ok slot)) ∨
      ∃ e, r.track selector = (r, .error e) := by
  rcases r.track_cases selector with ⟨slot, t, _, _, heq⟩ | ⟨_, ⟨slot, _, heq⟩ | ⟨_, heq⟩⟩
  · exact Or.inl ⟨slot, by rw [heq]⟩
  · exact Or.inl ⟨slot, by rw [heq]⟩
  · exact Or.inr ⟨_, heq⟩

/-- All that releasing can do. -/
theorem release_cases (r : Registry) (slot : Nat) :
    (r.slots.get? slot = none ∧ r.release slot = r) ∨
    ∃ t, r.slots.get? slot = some t ∧
      ((t.refs ≤ 1 ∧
        r.release slot =
          { r with
            slots := r.slots.set slot none
            index := r.index.filter (·.1 ≠ t.selector) }) ∨
      (1 < t.refs ∧
        r.release slot =
          { r with slots := r.slots.set slot (some { t with refs := t.refs - 1 }) })) := by
  cases hget : r.slots.get? slot with
  | none => exact Or.inl ⟨rfl, by simp [release, hget]⟩
  | some t =>
      right
      refine ⟨t, rfl, ?_⟩
      by_cases hrefs : t.refs ≤ 1
      · exact Or.inl ⟨hrefs, by simp [release, hget, hrefs]⟩
      · exact Or.inr ⟨Nat.lt_of_not_le hrefs, by simp [release, hget, hrefs]⟩

end Slots

section Matching

@[simp] theorem get?_rematch (r : Registry) (s : Store) (slot : Nat) :
    (r.rematch s).slots.get? slot = (r.slots.get? slot).map (Tracked.rematch s r.events) :=
  Column.get?_map _ _ _

@[simp] theorem size_slots_rematch (r : Registry) (s : Store) :
    (r.rematch s).slots.size = r.slots.size := by
  simp [rematch, Column.size]

@[simp] theorem get?_recalculate (r : Registry) (s : Store) (slot : Nat) :
    (r.recalculate s).slots.get? slot =
      (r.slots.get? slot).map (Tracked.rematch s r.pending) :=
  get?_rematch r.advance s slot

@[simp] theorem size_slots_recalculate (r : Registry) (s : Store) :
    (r.recalculate s).slots.size = r.slots.size :=
  size_slots_rematch r.advance s

end Matching

end Registry

section Selection

variable {s s' : Store} {v v' : Events}

/-- The selection depends on what selectors read and on what the event sets contain. -/
theorem Selector.selects_congr
    (hs : Store.SameSelection s s')
    (hv : ∀ kind e, (v'.get kind).contains e = (v.get kind).contains e)
    (selector : Selector) (e : Nat) :
    selector.selects s' v' e = selector.selects s v e := by
  have hatoms : Atom.holds s' v' e = Atom.holds s v e := by
    funext atom
    cases atom with
    | id name => rw [Atom.holds, Atom.holds, hs.read .name e rfl]
    | tag name => rw [Atom.holds, Atom.holds, hs.read .tags e rfl]
    | event kind => exact hv kind e
  rw [Selector.selects, Selector.selects, hatoms]

theorem Tracked.rematch_congr
    (hs : Store.SameSelection s s')
    (hv : ∀ kind e, (v'.get kind).contains e = (v.get kind).contains e)
    (t : Tracked) :
    Tracked.rematch s' v' t = Tracked.rematch s v t := by
  have hselected : t.selector.selected s' v' = t.selector.selected s v := by
    rw [Selector.selected, Selector.selected, hs.actives_eq]
    exact List.filter_congr fun e _ => Selector.selects_congr hs hv t.selector e
  rw [Tracked.rematch, Tracked.rematch, hselected]

theorem Tracked.words_rematch (s : Store) (v : Events) (t : Tracked) :
    (t.rematch s v).found.words = t.found.words := by
  rw [Tracked.rematch, EntitySet.words_foldl_insert, EntitySet.words_clear]

/-- A former match leaves no trace in a later one. -/
theorem Tracked.rematch_rematch (s s' : Store) (v v' : Events) (t : Tracked) :
    (t.rematch s v).rematch s' v' = t.rematch s' v' := by
  have hclear : (t.rematch s v).found.clear = t.found.clear := by
    simp only [EntitySet.clear, words_rematch]
  rw [Tracked.rematch, hclear]
  rfl

/-- After a match the set contains the active entities that the selector selects. -/
theorem Tracked.contains_rematch
    {t : Tracked}
    (hroom : s.capacity ≤ t.found.bound)
    (e : Nat) :
    (t.rematch s v).found.contains e = true ↔
      s.isActive e = true ∧ t.selector.selects s v e = true := by
  rw [Tracked.rematch, EntitySet.contains_foldl_insert, EntitySet.contains_clear,
    Selector.selected, List.mem_filter, Store.mem_actives]
  constructor
  · rintro (h | ⟨h, _⟩)
    · exact Bool.noConfusion h
    · exact h
  · intro h
    exact Or.inr ⟨h, Nat.lt_of_lt_of_le (Store.lt_capacity_of_isActive h.1) hroom⟩

end Selection
end EntityRules
