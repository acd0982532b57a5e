import EntityRules.Proofs.Entity.Pools

/-!
# Operations on one entity

An operation on an entity replaces its slot, adds to the revision, and may give the slot back to
its pool.  Which slot takes the place, how much is added and whether the slot is given back depend
on the slot alone, not on the rest of the store.  So operations on different entities commute, and
of stores that are alike on some entities the same operations on these make stores that are.

**Results.**
* `perform_eq_alter`: the form of an operation, one case per operation.
* `perform_comm`, `performAll_comm`: operations on different entities.
* `AlikeOn.performAll`, `alikeOn_performAll`: operations on entities inside and outside of a set.
-/

namespace EntityRules

/-! ## Pools -/

namespace Pool

theorem release_comm (e i : Nat) (l : List Nat) :
    release e (release i l) = release i (release e l) := by
  induction l with
  | nil => grind [release]
  | cons f l ih => grind [release]

theorem owns_deallocate (p : Pool) (e i : Nat) : (p.deallocate e).1.owns i = p.owns i := by
  rw [owns, owns, (p.range_deallocate e).1, (p.range_deallocate e).2]

/-- The order in which slots are given back does not matter. -/
theorem deallocate_comm (p : Pool) (e i : Nat) :
    ((p.deallocate e).1.deallocate i).1 = ((p.deallocate i).1.deallocate e).1 := by
  have hfst (q : Pool) (e : Nat) : (q.deallocate e).1 =
      if q.owns e = true then { q with free := release e q.free, activeCount := q.activeCount - 1 }
      else q := by
    rw [deallocate]
    split <;> rfl
  rw [hfst (p.deallocate e).1, hfst (p.deallocate i).1, owns_deallocate, owns_deallocate, hfst,
    hfst]
  split <;> split <;> simp only [release_comm]

end Pool

/-! ## Operations -/

/-- The operations on one entity. -/
def StoreAction.At (e : Nat) : StoreAction → Prop
  | .deactivate i => i = e
  | .insert _ i _ => i = e
  | .modify _ i _ => i = e
  | .remove _ i => i = e
  | .getOrInsert _ i _ _ => i = e
  | .activate _ => False
  | .resetScene => False

namespace Store

variable {s t : Store} {a b : StoreAction} {e i : Nat}

section Form

/-- Replaces a slot, adds to the revision, and gives the slot back if it is freed. -/
def alter (s : Store) (e : Nat) (slot : Slot) (bumps : Nat) (freed : Bool) : Store where
  global := if freed && s.global.owns e then (s.global.deallocate e).1 else s.global
  scene := if freed && !s.global.owns e then (s.scene.deallocate e).1 else s.scene
  slots := s.slots.setIfInBounds e slot
  revision := s.revision + bumps

theorem capacity_alter (s : Store) (e : Nat) (slot : Slot) (bumps : Nat) (freed : Bool) :
    (s.alter e slot bumps freed).capacity = s.capacity := Array.size_setIfInBounds

theorem slot_alter (s : Store) (e : Nat) (slot : Slot) (bumps : Nat) (freed : Bool) (i : Nat) :
    (s.alter e slot bumps freed).slot i = if i = e ∧ e < s.capacity then slot else s.slot i :=
  slot_setSlot s e slot i

theorem alter_comm (h : e ≠ i) (s : Store) (slot slot' : Slot) (bumps bumps' : Nat)
    (freed freed' : Bool) :
    (s.alter e slot bumps freed).alter i slot' bumps' freed' =
      (s.alter i slot' bumps' freed').alter e slot bumps freed := by
  have howns (e i : Nat) (freed : Bool) :
      (if freed && s.global.owns e then (s.global.deallocate e).1 else s.global).owns i =
        s.global.owns i := by
    split
    · exact s.global.owns_deallocate e i
    · rfl
  simp only [alter, howns, mk.injEq]
  refine ⟨?_, ?_, Array.setIfInBounds_comm slot slot' h, Nat.add_right_comm ..⟩
  · split <;> split <;> simp only [Pool.deallocate_comm]
  · split <;> split <;> simp only [Pool.deallocate_comm]

theorem alter_slot (s : Store) (e bumps : Nat) :
    s.alter e (s.slot e) bumps false = { s with revision := s.revision + bumps } := by
  have hslots : s.slots.setIfInBounds e (s.slot e) = s.slots := by
    refine Array.ext_getElem? fun i => ?_
    rw [Array.getElem?_setIfInBounds]
    by_cases hi : e = i
    · subst hi
      by_cases hlt : e < s.slots.size <;> simp [Store.slot, hlt]
    · rw [if_neg hi]
  rw [alter, hslots]
  rfl

/-- How much the revision grows when a component is obtained for writing. -/
def weight (c : Component) : Nat := if c.affectsSelection then 1 else 0

theorem bumpFor_eq (s : Store) (c : Component) :
    s.bumpFor c = { s with revision := s.revision + weight c } := by
  unfold bumpFor weight
  split <;> rfl

/-- An operation on a slot that is not active does nothing. -/
theorem perform_of_not_active (ha : a.At e) (h : s.isActive e = false) : s.perform a = s := by
  cases a with
  | activate pool => exact ha.elim
  | resetScene => exact ha.elim
  | deactivate i =>
      obtain rfl : i = e := ha
      simp [perform, deactivate, h]
  | insert c i value =>
      obtain rfl : i = e := ha
      simp [perform, insert, h]
  | modify c i change =>
      obtain rfl : i = e := ha
      simp [perform, modify, access, h]
  | remove c i =>
      obtain rfl : i = e := ha
      simp [perform, remove, get?, h]
  | getOrInsert c i initial change =>
      obtain rfl : i = e := ha
      simp [perform, getOrInsert, h]

/-- The form of an operation on an active slot. -/
theorem perform_of_active (ha : a.At e) (k : Components) :
    ∃ slot bumps freed, ∀ s : Store, s.slot e = ⟨true, k⟩ →
      s.perform a = s.alter e slot bumps freed := by
  have hactive {s : Store} {k : Components} (hs : s.slot e = ⟨true, k⟩) :
      s.isActive e = true := by
    rw [isActive, hs]
  cases a with
  | activate pool => exact ha.elim
  | resetScene => exact ha.elim
  | deactivate i =>
      obtain rfl : i = e := ha
      refine ⟨{}, 1, true, fun s hs => ?_⟩
      simp only [perform, deactivate, hactive hs, if_true, home]
      cases howns : s.global.owns i <;> simp [howns, setPool, setSlot, pool, bump, alter]
  | insert c i value =>
      obtain rfl : i = e := ha
      refine ⟨⟨true, k.set c (some value)⟩, weight c, false, fun s hs => ?_⟩
      simp only [perform, insert, hactive hs, if_true, put, slot_bumpFor, hs]
      rw [bumpFor_eq]
      rfl
  | modify c i change =>
      obtain rfl : i = e := ha
      cases hget : k.get c with
      | none =>
          refine ⟨⟨true, k⟩, weight c, false, fun s hs => ?_⟩
          simp only [perform, modify, access, hactive hs, if_true, hs, hget]
          rw [bumpFor_eq, ← hs, alter_slot]
      | some value =>
          refine ⟨⟨true, k.set c (some (change value))⟩, weight c, false, fun s hs => ?_⟩
          simp only [perform, modify, access, hactive hs, if_true, hs, hget, put, slot_bumpFor]
          rw [bumpFor_eq]
          rfl
  | remove c i =>
      obtain rfl : i = e := ha
      cases hget : k.get c with
      | none =>
          refine ⟨⟨true, k⟩, 0, false, fun s hs => ?_⟩
          simp only [perform, remove, get?, hactive hs, if_true, hs, hget]
          rw [← hs, alter_slot]
          rfl
      | some value =>
          refine ⟨⟨true, k.set c none⟩, weight c, false, fun s hs => ?_⟩
          simp only [perform, remove, get?, hactive hs, if_true, hs, hget, put]
          rw [bumpFor_eq]
          rfl
  | getOrInsert c i initial change =>
      obtain rfl : i = e := ha
      cases hget : k.get c with
      | none =>
          refine ⟨⟨true, (k.set c (some initial)).set c (some (change initial))⟩,
            weight c + weight c, false, fun s hs => ?_⟩
          have hinsert : (s.insert c i initial).1 =
              s.alter i ⟨true, k.set c (some initial)⟩ (weight c) false := by
            simp only [insert, hactive hs, if_true, put, slot_bumpFor, hs]
            rw [bumpFor_eq]
            rfl
          have hslot : (s.insert c i initial).1.slot i = ⟨true, k.set c (some initial)⟩ := by
            rw [hinsert, slot_alter, if_pos ⟨rfl, lt_capacity_of_isActive (hactive hs)⟩]
          simp only [perform, getOrInsert, hactive hs, if_true, has, get?, hs, hget,
            Option.isSome_none, Bool.false_eq_true, if_false, access, hactive hslot, hslot,
            Components.get_set_self, put, slot_bumpFor]
          rw [bumpFor_eq, hinsert]
          simp only [setSlot, alter, Array.setIfInBounds_setIfInBounds, Nat.add_assoc,
            Bool.false_and, Bool.false_eq_true, if_false]
      | some value =>
          refine ⟨⟨true, k.set c (some (change value))⟩, weight c, false, fun s hs => ?_⟩
          simp only [perform, getOrInsert, has, get?, access, hactive hs, if_true, hs, hget,
            Option.isSome_some, put, slot_bumpFor]
          rw [bumpFor_eq]
          rfl

/-- The form of an operation on an entity with a given slot, in every store. -/
theorem perform_eq_alter (ha : a.At e) (old : Slot) :
    ∃ slot bumps freed, ∀ s : Store, s.slot e = old →
      s.perform a = s.alter e slot bumps freed := by
  obtain ⟨active, k⟩ := old
  cases active with
  | true => exact perform_of_active ha k
  | false =>
      refine ⟨⟨false, k⟩, 0, false, fun s hs => ?_⟩
      have hgone : s.isActive e = false := by rw [isActive, hs]
      rw [perform_of_not_active ha hgone, ← hs, alter_slot]
      rfl

end Form

section Entities

theorem sameElsewhere_performAt (ha : a.At e) (s : Store) : SameElsewhere e s (s.perform a) := by
  intro i hi
  obtain ⟨slot, bumps, freed, hform⟩ := perform_eq_alter ha (s.slot e)
  rw [hform s rfl, slot_alter, if_neg fun h => hi h.1]

theorem capacity_performAt (ha : a.At e) (s : Store) : (s.perform a).capacity = s.capacity := by
  obtain ⟨slot, bumps, freed, hform⟩ := perform_eq_alter ha (s.slot e)
  rw [hform s rfl, capacity_alter]

/-- Operations on different entities commute. -/
theorem perform_comm (ha : a.At e) (hb : b.At i) (h : e ≠ i) (s : Store) :
    (s.perform a).perform b = (s.perform b).perform a := by
  obtain ⟨slot, bumps, freed, hform⟩ := perform_eq_alter ha (s.slot e)
  obtain ⟨slot', bumps', freed', hform'⟩ := perform_eq_alter hb (s.slot i)
  rw [hform' _ (sameElsewhere_performAt ha s i h.symm),
    hform _ (sameElsewhere_performAt hb s e h), hform s rfl, hform' s rfl, alter_comm h]

variable {M N : Nat → Prop} {actions others : List StoreAction}

/-- Operations on entities that have a property. -/
def Within (M : Nat → Prop) (actions : List StoreAction) : Prop :=
  ∀ a ∈ actions, ∃ e, M e ∧ a.At e

theorem within_nil (M : Nat → Prop) : Within M [] := fun _ h => absurd h List.not_mem_nil

theorem Within.append (hactions : Within M actions) (hothers : Within M others) :
    Within M (actions ++ others) :=
  fun a ha => (List.mem_append.mp ha).elim (hactions a) (hothers a)

/-- Operations on the entities of disjoint sets commute. -/
theorem performAll_comm (h : ∀ e, M e → ¬N e) (hactions : Within M actions)
    (hothers : Within N others) (s : Store) :
    others.foldl perform (actions.foldl perform s) =
      actions.foldl perform (others.foldl perform s) := by
  -- one operation moves past all operations on the first set, then the next one does
  have hone {b : StoreAction} (hb : ∃ i, N i ∧ b.At i) (s : Store) :
      (actions.foldl perform s).perform b = actions.foldl perform (s.perform b) := by
    obtain ⟨i, hi, hb⟩ := hb
    induction actions generalizing s with
    | nil => rfl
    | cons a actions ih =>
        obtain ⟨⟨e, he, ha⟩, hrest⟩ := List.forall_mem_cons.mp hactions
        have hne : e ≠ i := fun heq => h e he (heq ▸ hi)
        rw [List.foldl_cons, List.foldl_cons, ih hrest, perform_comm ha hb hne]
  induction others generalizing s with
  | nil => rfl
  | cons b others ih =>
      obtain ⟨hb, hrest⟩ := List.forall_mem_cons.mp hothers
      rw [List.foldl_cons, List.foldl_cons, hone hb, ih hrest]

/-- Two stores are alike on some entities. -/
structure AlikeOn (M : Nat → Prop) (s t : Store) : Prop where
  capacity : t.capacity = s.capacity
  slot : ∀ e, M e → t.slot e = s.slot e

theorem AlikeOn.refl (M : Nat → Prop) (s : Store) : AlikeOn M s s := ⟨rfl, fun _ _ => rfl⟩

theorem AlikeOn.symm (h : AlikeOn M s t) : AlikeOn M t s :=
  ⟨h.capacity.symm, fun e he => (h.slot e he).symm⟩

theorem AlikeOn.isActive (h : AlikeOn M s t) (he : M e) : t.isActive e = s.isActive e := by
  rw [Store.isActive, h.slot e he, Store.isActive]

/-- Stores that are alike on an entity stay so under operations on it. -/
theorem AlikeOn.perform (h : AlikeOn M s t) (he : M e) (ha : a.At e) :
    AlikeOn M (s.perform a) (t.perform a) := by
  obtain ⟨slot, bumps, freed, hform⟩ := perform_eq_alter ha (s.slot e)
  rw [hform s rfl, hform t (h.slot e he)]
  refine ⟨?_, fun i hi => ?_⟩
  · rw [capacity_alter, capacity_alter, h.capacity]
  · rw [slot_alter, slot_alter, h.capacity, h.slot i hi]

theorem AlikeOn.performAll (h : AlikeOn M s t) (hactions : Within M actions) :
    AlikeOn M (actions.foldl Store.perform s) (actions.foldl Store.perform t) := by
  induction actions generalizing s t with
  | nil => exact h
  | cons a actions ih =>
      obtain ⟨⟨e, he, ha⟩, hrest⟩ := List.forall_mem_cons.mp hactions
      exact ih (h.perform he ha) hrest

/-- Operations on other entities leave a store alike. -/
theorem alikeOn_performAll (h : ∀ e, M e → ¬N e) (hothers : Within N others) (s : Store) :
    AlikeOn M s (others.foldl perform s) := by
  induction others generalizing s with
  | nil => exact .refl M s
  | cons b others ih =>
      obtain ⟨⟨i, hi, hb⟩, hrest⟩ := List.forall_mem_cons.mp hothers
      have hafter := ih hrest (s.perform b)
      refine ⟨hafter.capacity.trans (capacity_performAt hb s), fun e he => ?_⟩
      have hne : e ≠ i := fun heq => h e he (heq ▸ hi)
      exact (hafter.slot e he).trans (sameElsewhere_performAt hb s e hne)

end Entities

end Store
end EntityRules
