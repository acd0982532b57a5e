import EntityRules.Entity.Store

/-!
# What the operations of a store change

Selectors read which slots are active and the components for which
`Component.affectsSelection` holds.  `SameSelection` says that two stores agree on that.
The revision is the witness of such an agreement: along every run it never falls, and while it
stands still nothing that selectors read has moved.

**Results.**
* `slot_setSlot`, `slot_put`: the two ways in which a slot changes.
* `sameElsewhere_insert`, `sameElsewhere_deactivate` and the like: an operation on an entity
  leaves the slots of the others as they were.
* `follows_perform`: what one operation preserves.
* `follows_performAll`: what a run preserves.
* `revision_stands_for_selection`: two points of a run, and every point in between.
-/

namespace EntityRules
namespace Store

variable {s t u : Store} {e i : Nat} {c d : Component}

section Slots

@[simp] theorem capacity_setSlot (s : Store) (e : Nat) (slot : Slot) :
    (s.setSlot e slot).capacity = s.capacity := by
  simp [capacity, setSlot]

@[simp] theorem capacity_setPool (s : Store) (kind : PoolKind) (p : Pool) :
    (s.setPool kind p).capacity = s.capacity := by
  cases kind <;> rfl

@[simp] theorem capacity_bump (s : Store) : s.bump.capacity = s.capacity := rfl

@[simp] theorem capacity_bumpFor (s : Store) (c : Component) :
    (s.bumpFor c).capacity = s.capacity := by
  simp only [bumpFor]
  split <;> rfl

@[simp] theorem capacity_put (s : Store) (c : Component) (e : Nat) (v : Option c.Value) :
    (s.put c e v).capacity = s.capacity := by
  simp [put]

@[simp] theorem slot_setPool (s : Store) (kind : PoolKind) (p : Pool) (i : Nat) :
    (s.setPool kind p).slot i = s.slot i := by
  cases kind <;> rfl

@[simp] theorem slot_bump (s : Store) (i : Nat) : s.bump.slot i = s.slot i := rfl

@[simp] theorem slot_bumpFor (s : Store) (c : Component) (i : Nat) :
    (s.bumpFor c).slot i = s.slot i := by
  simp only [bumpFor]
  split <;> rfl

theorem slot_setSlot (s : Store) (e : Nat) (slot : Slot) (i : Nat) :
    (s.setSlot e slot).slot i = if i = e ∧ e < s.capacity then slot else s.slot i := by
  simp only [setSlot, Store.slot, capacity, Array.getElem?_setIfInBounds]
  by_cases hie : e = i
  · subst hie
    by_cases hlt : e < s.slots.size
    · simp [hlt]
    · simp [hlt]
  · simp [hie, Ne.symm hie]

theorem slot_of_capacity_le (h : s.capacity ≤ e) : s.slot e = {} := by
  have hnone : s.slots[e]? = none := Array.getElem?_eq_none h
  simp [Store.slot, hnone]

theorem lt_capacity_of_isActive (h : s.isActive e = true) : e < s.capacity := by
  refine Nat.lt_of_not_le fun hle => ?_
  simp [isActive, slot_of_capacity_le hle] at h

theorem mem_actives : e ∈ s.actives ↔ s.isActive e = true := by
  rw [actives, List.mem_filter, List.mem_range]
  exact ⟨fun h => h.2, fun h => ⟨lt_capacity_of_isActive h, h⟩⟩

end Slots

section Components

theorem slot_put (s : Store) (c : Component) (e : Nat) (v : Option c.Value) (i : Nat) :
    (s.put c e v).slot i =
      if i = e ∧ e < s.capacity then
        { s.slot e with components := (s.slot e).components.set c v }
      else s.slot i := by
  rw [put, slot_setSlot]

@[simp] theorem isActive_put (s : Store) (c : Component) (e : Nat) (v : Option c.Value)
    (i : Nat) : (s.put c e v).isActive i = s.isActive i := by
  rw [isActive, slot_put]
  split
  · next h => rw [h.1, isActive]
  · rfl

@[simp] theorem isActive_bumpFor (s : Store) (c : Component) (i : Nat) :
    (s.bumpFor c).isActive i = s.isActive i := by
  simp [isActive]

theorem get?_bumpFor (s : Store) (c d : Component) (e : Nat) :
    (s.bumpFor c).get? d e = s.get? d e := by
  rw [get?, get?, isActive_bumpFor, slot_bumpFor]

theorem get?_put_self (h : s.isActive e = true) (c : Component) (v : Option c.Value) :
    (s.put c e v).get? c e = v := by
  rw [get?, isActive_put, h, if_pos rfl, slot_put, if_pos ⟨rfl, lt_capacity_of_isActive h⟩,
    Components.get_set_self]

/-- A change of one component leaves the others as they were. -/
theorem get?_put_of_ne (h : c ≠ d) (s : Store) (e : Nat) (v : Option c.Value) (i : Nat) :
    (s.put c e v).get? d i = s.get? d i := by
  rw [get?, get?, isActive_put, slot_put]
  by_cases hi : i = e ∧ e < s.capacity
  · rw [if_pos hi, hi.1, Components.get_set_of_ne _ h]
  · rw [if_neg hi]

end Components

section Elsewhere

/-- The slots of all entities but one are as they were. -/
def SameElsewhere (e : Nat) (s t : Store) : Prop := ∀ i, i ≠ e → t.slot i = s.slot i

theorem SameElsewhere.refl (e : Nat) (s : Store) : SameElsewhere e s s := fun _ _ => rfl

theorem SameElsewhere.trans (hst : SameElsewhere e s t) (htu : SameElsewhere e t u) :
    SameElsewhere e s u :=
  fun i hi => (htu i hi).trans (hst i hi)

theorem sameElsewhere_setSlot (s : Store) (e : Nat) (slot : Slot) :
    SameElsewhere e s (s.setSlot e slot) := by
  intro i hi
  rw [slot_setSlot, if_neg (fun h => hi h.1)]

theorem sameElsewhere_bumpFor (s : Store) (c : Component) (e : Nat) :
    SameElsewhere e s (s.bumpFor c) :=
  fun i _ => slot_bumpFor s c i

theorem sameElsewhere_put (s : Store) (c : Component) (e : Nat) (v : Option c.Value) :
    SameElsewhere e s (s.put c e v) :=
  sameElsewhere_setSlot s e _

theorem sameElsewhere_deactivate (s : Store) (e : Nat) :
    SameElsewhere e s (s.deactivate e).1 := by
  intro i hi
  simp only [deactivate]
  split
  · rw [slot_bump, slot_setPool]
    exact sameElsewhere_setSlot s e {} i hi
  · rfl

theorem sameElsewhere_insert (s : Store) (c : Component) (e : Nat) (value : c.Value) :
    SameElsewhere e s (s.insert c e value).1 := by
  simp only [insert]
  split
  · exact (sameElsewhere_bumpFor s c e).trans (sameElsewhere_put _ c e _)
  · exact SameElsewhere.refl e s

theorem sameElsewhere_remove (s : Store) (c : Component) (e : Nat) :
    SameElsewhere e s (s.remove c e).1 := by
  simp only [remove]
  split
  · exact (sameElsewhere_put s c e none).trans (sameElsewhere_bumpFor _ c e)
  · exact SameElsewhere.refl e s

theorem sameElsewhere_access (s : Store) (c : Component) (e : Nat) :
    SameElsewhere e s (s.access c e).1 := by
  simp only [access]
  split
  · exact sameElsewhere_bumpFor s c e
  · exact SameElsewhere.refl e s

theorem sameElsewhere_modify {ρ : Type} (s : Store) (c : Component) (e : Nat)
    (f : c.Value → c.Value × ρ) : SameElsewhere e s (s.modify c e f).1 := by
  have haccess := sameElsewhere_access s c e
  simp only [modify]
  split
  · next t value heq =>
      rw [heq] at haccess
      exact haccess.trans (sameElsewhere_put t c e _)
  · next t heq =>
      rw [heq] at haccess
      exact haccess

/-- An access that may give a component its initial value either refuses or ends with a note of
the access, in the store in which the component is there. -/
theorem getOrInsert_cases (s : Store) (c : Component) (e : Nat) (initial : c.Value) :
    (∃ fault, s.getOrInsert c e initial = (s, .error fault)) ∨
      ∃ t answer, (t = s ∨ t = (s.insert c e initial).1) ∧
        s.getOrInsert c e initial = (t.bumpFor c, answer) := by
  cases hact : s.isActive e with
  | false =>
      exact Or.inl ⟨.inactive e, by simp [getOrInsert, hact]⟩
  | true =>
      right
      generalize ht : (if s.has c e then s else (s.insert c e initial).1) = t
      have hstore : t = s ∨ t = (s.insert c e initial).1 := by
        rw [← ht]
        split
        · exact Or.inl rfl
        · exact Or.inr rfl
      have hact' : t.isActive e = true := by
        rcases hstore with rfl | rfl
        · exact hact
        · simp [insert, hact]
      simp only [getOrInsert, hact, if_true, ht, access, hact']
      cases (t.slot e).components.get c with
      | some value => exact ⟨t, _, hstore, rfl⟩
      | none => exact ⟨t, _, hstore, rfl⟩

theorem sameElsewhere_getOrInsert (s : Store) (c : Component) (e : Nat) (initial : c.Value) :
    SameElsewhere e s (s.getOrInsert c e initial).1 := by
  rcases getOrInsert_cases s c e initial with ⟨fault, h⟩ | ⟨t, answer, ht, h⟩
  · rw [h]
    exact SameElsewhere.refl e s
  · rw [h]
    rcases ht with rfl | rfl
    · exact sameElsewhere_bumpFor t c e
    · exact (sameElsewhere_insert s c e initial).trans (sameElsewhere_bumpFor _ c e)

end Elsewhere

section Selection

/-- Two stores agree on all that selectors read. -/
structure SameSelection (s t : Store) : Prop where
  capacity : t.capacity = s.capacity
  active : ∀ e, t.isActive e = s.isActive e
  read : ∀ c e, c.affectsSelection = true → t.get? c e = s.get? c e

theorem SameSelection.refl (s : Store) : SameSelection s s :=
  ⟨rfl, fun _ => rfl, fun _ _ _ => rfl⟩

theorem SameSelection.trans (hst : SameSelection s t) (htu : SameSelection t u) :
    SameSelection s u where
  capacity := htu.capacity.trans hst.capacity
  active e := (htu.active e).trans (hst.active e)
  read c e hc := (htu.read c e hc).trans (hst.read c e hc)

theorem SameSelection.actives_eq (h : SameSelection s t) : t.actives = s.actives := by
  rw [actives, actives, h.capacity]
  exact List.filter_congr fun e _ => h.active e

theorem sameSelection_put (hc : c.affectsSelection = false) (s : Store) (e : Nat)
    (v : Option c.Value) : SameSelection s (s.put c e v) where
  capacity := capacity_put s c e v
  active := isActive_put s c e v
  read d i hd := by
    refine get?_put_of_ne (fun hcd => ?_) s e v i
    rw [hcd, hd] at hc
    exact Bool.noConfusion hc

end Selection

section Revisions

/-- A later store of a run: its revision is no lower, and equal only if nothing that selectors
read has changed. -/
structure Follows (s t : Store) : Prop where
  capacity : t.capacity = s.capacity
  revision_le : s.revision ≤ t.revision
  same : t.revision = s.revision → SameSelection s t

theorem Follows.refl (s : Store) : Follows s s :=
  ⟨rfl, Nat.le_refl _, fun _ => SameSelection.refl s⟩

theorem Follows.trans (hst : Follows s t) (htu : Follows t u) : Follows s u where
  capacity := htu.capacity.trans hst.capacity
  revision_le := Nat.le_trans hst.revision_le htu.revision_le
  same h := by
    have h₁ := hst.revision_le
    have h₂ := htu.revision_le
    -- the revision cannot rise and fall again, so it stood still in between
    exact (hst.same (by omega)).trans (htu.same (by omega))

/-- A store with a higher revision may differ in any way. -/
theorem Follows.of_lt (hcap : t.capacity = s.capacity) (h : s.revision < t.revision) :
    Follows s t :=
  ⟨hcap, Nat.le_of_lt h, fun heq => absurd heq (Nat.ne_of_gt h)⟩

theorem Follows.of_same (hrev : t.revision = s.revision) (h : SameSelection s t) :
    Follows s t :=
  ⟨h.capacity, Nat.le_of_eq hrev.symm, fun _ => h⟩

@[simp] theorem revision_setSlot (s : Store) (e : Nat) (slot : Slot) :
    (s.setSlot e slot).revision = s.revision := rfl

@[simp] theorem revision_setPool (s : Store) (kind : PoolKind) (p : Pool) :
    (s.setPool kind p).revision = s.revision := by
  cases kind <;> rfl

@[simp] theorem revision_bump (s : Store) : s.bump.revision = s.revision + 1 := rfl

@[simp] theorem revision_put (s : Store) (c : Component) (e : Nat) (v : Option c.Value) :
    (s.put c e v).revision = s.revision := rfl

theorem bumpFor_of_affects (hc : c.affectsSelection = true) (s : Store) :
    s.bumpFor c = s.bump := by
  simp [bumpFor, hc]

theorem bumpFor_of_not_affects (hc : c.affectsSelection = false) (s : Store) :
    s.bumpFor c = s := by
  simp [bumpFor, hc]

theorem follows_bumpFor (s : Store) (c : Component) : Follows s (s.bumpFor c) := by
  cases hc : c.affectsSelection with
  | true =>
      rw [bumpFor_of_affects hc]
      exact Follows.of_lt rfl (Nat.lt_succ_self _)
  | false =>
      rw [bumpFor_of_not_affects hc]
      exact Follows.refl s

/-- A component is changed together with a note of the change. -/
theorem follows_bumpFor_put (s : Store) (c : Component) (e : Nat) (v : Option c.Value) :
    Follows s ((s.bumpFor c).put c e v) := by
  cases hc : c.affectsSelection with
  | true =>
      rw [bumpFor_of_affects hc]
      exact Follows.of_lt (by simp) (Nat.lt_succ_self _)
  | false =>
      rw [bumpFor_of_not_affects hc]
      exact Follows.of_same rfl (sameSelection_put hc s e v)

theorem bumpFor_put (s : Store) (c : Component) (e : Nat) (v : Option c.Value) :
    (s.put c e v).bumpFor c = (s.bumpFor c).put c e v := by
  simp only [bumpFor]
  split <;> rfl

end Revisions

section Access

theorem access_of_active (hactive : s.isActive e = true) (hc : c.affectsSelection = false) :
    s.access c e = (s, s.get? c e) := by
  simp only [access, get?, hactive, if_true, bumpFor_of_not_affects hc]

/-- A component that selectors do not read is obtained without a trace, but for its initial
value. -/
theorem getOrInsert_of_active (hactive : s.isActive e = true) (hc : c.affectsSelection = false)
    (initial : c.Value) :
    ∃ t, s.getOrInsert c e initial = (t, .ok ((s.get? c e).getD initial)) ∧
      t.isActive e = true ∧ ∀ d, d ≠ c → t.get? d e = s.get? d e := by
  cases hget : s.get? c e with
  | some value =>
      refine ⟨s, ?_, hactive, fun _ _ => rfl⟩
      simp [getOrInsert, hactive, has, hget, access_of_active hactive hc]
  | none =>
      have hinsert : (s.insert c e initial).1 = s.put c e (some initial) := by
        simp [insert, hactive, bumpFor_of_not_affects hc]
      have hactive' : (s.put c e (some initial)).isActive e = true :=
        (isActive_put s c e _ e).trans hactive
      refine ⟨s.put c e (some initial), ?_, hactive', ?_⟩
      · simp [getOrInsert, hactive, has, hget, hinsert, access_of_active hactive' hc,
          get?_put_self hactive]
      · intro d hd
        exact get?_put_of_ne hd.symm s e _ e

end Access

section Operations

theorem follows_activate (s : Store) (kind : PoolKind) : Follows s (s.activate kind).1 := by
  simp only [activate]
  split
  · exact Follows.refl s
  · exact Follows.of_lt (by simp) (by simp)

theorem follows_deactivate (s : Store) (e : Nat) : Follows s (s.deactivate e).1 := by
  simp only [deactivate]
  split
  · exact Follows.of_lt (by simp) (by simp)
  · exact Follows.refl s

theorem follows_deactivateAll (s : Store) (l : List Nat) : Follows s (s.deactivateAll l).1 := by
  induction l generalizing s with
  | nil => exact Follows.refl s
  | cons e l ih => exact (follows_deactivate s e).trans (ih _)

theorem follows_resetScene (s : Store) : Follows s s.resetScene.1 :=
  follows_deactivateAll s _

theorem follows_insert (s : Store) (c : Component) (e : Nat) (value : c.Value) :
    Follows s (s.insert c e value).1 := by
  simp only [insert]
  split
  · exact follows_bumpFor_put s c e _
  · exact Follows.refl s

theorem follows_remove (s : Store) (c : Component) (e : Nat) : Follows s (s.remove c e).1 := by
  simp only [remove]
  split
  · rw [bumpFor_put]
    exact follows_bumpFor_put s c e none
  · exact Follows.refl s

theorem follows_modify {ρ : Type} (s : Store) (c : Component) (e : Nat)
    (f : c.Value → c.Value × ρ) : Follows s (s.modify c e f).1 := by
  cases hact : s.isActive e with
  | false =>
      simpa [modify, access, hact] using Follows.refl s
  | true =>
      cases hget : (s.slot e).components.get c with
      | none =>
          simpa [modify, access, hact, hget] using follows_bumpFor s c
      | some value =>
          simpa [modify, access, hact, hget] using follows_bumpFor_put s c e (some (f value).1)

end Operations

/-! ## Runs -/

end Store

/-- An operation on a store.  A component obtained for writing is changed by a function. -/
inductive StoreAction where
  | activate (pool : PoolKind)
  | deactivate (e : Nat)
  | resetScene
  | insert (c : Component) (e : Nat) (value : c.Value)
  | modify (c : Component) (e : Nat) (change : c.Value → c.Value)
  | remove (c : Component) (e : Nat)
  | getOrInsert (c : Component) (e : Nat) (initial : c.Value) (change : c.Value → c.Value)

namespace Store

/-- The store after an operation. -/
def perform (s : Store) : StoreAction → Store
  | .activate pool => (s.activate pool).1
  | .deactivate e => (s.deactivate e).1
  | .resetScene => s.resetScene.1
  | .insert c e value => (s.insert c e value).1
  | .modify c e change => (s.modify c e fun value => (change value, ())).1
  | .remove c e => (s.remove c e).1
  | .getOrInsert c e initial change =>
    match s.getOrInsert c e initial with
    | (s, .ok value) => s.put c e (some (change value))
    | (s, .error _) => s

/-- What one operation preserves. -/
theorem follows_perform (s : Store) (a : StoreAction) : Follows s (s.perform a) := by
  cases a with
  | activate pool => exact follows_activate s pool
  | deactivate e => exact follows_deactivate s e
  | resetScene => exact follows_resetScene s
  | insert c e value => exact follows_insert s c e value
  | modify c e change => exact follows_modify s c e _
  | remove c e => exact follows_remove s c e
  | getOrInsert c e initial change =>
      simp only [perform]
      rcases getOrInsert_cases s c e initial with ⟨fault, h⟩ | ⟨t, answer, ht, h⟩
      · rw [h]
        exact Follows.refl s
      · rw [h]
        have hfollows : Follows s t := by
          rcases ht with rfl | rfl
          · exact Follows.refl t
          · exact follows_insert s c e initial
        cases answer with
        | ok value => exact hfollows.trans (follows_bumpFor_put t c e _)
        | error fault => exact hfollows.trans (follows_bumpFor t c)

/-- What a run preserves. -/
theorem follows_performAll (s : Store) (actions : List StoreAction) :
    Follows s (actions.foldl perform s) := by
  induction actions generalizing s with
  | nil => exact Follows.refl s
  | cons a actions ih => exact (follows_perform s a).trans (ih _)

section Points

variable {i j : Nat}

/-- The store at a point of a run, after the first `n` operations. -/
def stage (s : Store) (actions : List StoreAction) (n : Nat) : Store :=
  (actions.take n).foldl perform s

/-- The store at a later point of a run follows that at an earlier one. -/
theorem follows_stage (s : Store) (actions : List StoreAction) (h : i ≤ j) :
    Follows (s.stage actions i) (s.stage actions j) := by
  have hsplit : actions.take j = actions.take i ++ (actions.drop i).take (j - i) := by
    rw [← List.take_add, Nat.add_sub_cancel' h]
  rw [stage, stage, hsplit, List.foldl_append]
  exact follows_performAll _ _

/-- Nothing that selectors read has changed in a store between two of the same revision. -/
theorem Follows.same_between (hst : Follows s t) (htu : Follows t u)
    (h : s.revision = u.revision) : SameSelection s t := by
  have h₁ := hst.revision_le
  have h₂ := htu.revision_le
  exact hst.same (by omega)

/-- **What the revision stands for.**  Along a run the revision never falls.  If it is the same at
two points, then the same entities are active at both and at every point in between, and every
entity has the same name and the same tags. -/
theorem revision_stands_for_selection (s : Store) (actions : List StoreAction) (hij : i ≤ j) :
    (s.stage actions i).revision ≤ (s.stage actions j).revision ∧
    ((s.stage actions i).revision = (s.stage actions j).revision → ∀ k, i ≤ k → k ≤ j →
      (s.stage actions k).actives = (s.stage actions i).actives ∧
      ∀ e, (s.stage actions k).get? .name e = (s.stage actions i).get? .name e ∧
        (s.stage actions k).get? .tags e = (s.stage actions i).get? .tags e) := by
  refine ⟨(follows_stage s actions hij).revision_le, fun hrevision k hik hkj => ?_⟩
  have hsame : SameSelection (s.stage actions i) (s.stage actions k) :=
    (follows_stage s actions hik).same_between (follows_stage s actions hkj) hrevision
  exact ⟨hsame.actives_eq, fun e => ⟨hsame.read .name e rfl, hsame.read .tags e rfl⟩⟩

/-- A door gets its name, then only what selectors do not read changes, then a player comes. -/
def furnishing : List StoreAction :=
  [.activate .scene, .insert .name 1 "door", .insert .layout 1 {},
    .getOrInsert .properties 1 [] fun p => p ++ [("open", .bool true)], .remove .tags 1,
    .deactivate 9, .modify .flex 1 id, .activate .global]

theorem revision_stands_for_selection_furnishing :
    let s := Store.new 1 2
    2 ≤ 7 ∧ (s.stage furnishing 2).revision = (s.stage furnishing 7).revision ∧
    (∀ k, 2 ≤ k → k ≤ 7 →
      (s.stage furnishing k).actives = [1] ∧
        (s.stage furnishing k).get? .name 1 = some "door") ∧
    (s.stage furnishing 7).revision < (s.stage furnishing 8).revision := by
  intro s
  have hstands := (revision_stands_for_selection s furnishing (i := 2) (j := 7) (by decide)).2
    (by decide)
  refine ⟨by decide, by decide, fun k h₁ h₂ => ?_, by decide⟩
  obtain ⟨hactives, hread⟩ := hstands k h₁ h₂
  exact ⟨hactives.trans (by decide), (hread 1).1.trans (by decide)⟩

end Points

end Store
end EntityRules
