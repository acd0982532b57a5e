import EntityRules.Proofs.Entity.Locality

/-!
# Components that are set

A component of an active entity is set to a value or taken away.  The revision grows by one if this
is the name or the tags and selectors see another value afterwards.

**Results.**
* `revise_self`: a component that is set to what it is.
* `revise_comm`, `revise_revise`: components that are set one after another.
* `bumpFor_put_eq_revise`, `getOrInsert_put`: the operations of a store as components that are set.
-/

namespace EntityRules

/-- How much the revision grows when a component changes. -/
def Component.moved : (c : Component) → (before after : Option c.Value) → Nat
  | .name, before, after => if after = before then 0 else 1
  | .tags, before, after => if after = before then 0 else 1
  | .transform, _, _ | .properties, _, _ | .parent, _, _ | .flex, _, _ | .layout, _, _ => 0

theorem Component.moved_self (c : Component) (value? : Option c.Value) :
    c.moved value? value? = 0 := by
  cases c with
  | name => exact if_pos rfl
  | tags => exact if_pos rfl
  | transform | properties | parent | flex | layout => rfl

theorem Component.moved_of_not_affects {c : Component} (hc : c.affectsSelection = false)
    (before after : Option c.Value) : c.moved before after = 0 := by
  cases c with
  | name | tags => cases hc
  | transform | properties | parent | flex | layout => rfl

namespace Store

variable {s : Store} {e : Nat} {c d : Component}

/-- Sets a component of an entity and raises the revision if selectors see another value. -/
def revise (s : Store) (c : Component) (e : Nat) (value? : Option c.Value) : Store :=
  { s.put c e value? with revision := s.revision + c.moved (s.get? c e) value? }

theorem isActive_revise (s : Store) (c : Component) (e : Nat) (value? : Option c.Value) (i : Nat) :
    (s.revise c e value?).isActive i = s.isActive i :=
  isActive_put s c e value? i

theorem get?_revise_self (h : s.isActive e = true) (c : Component) (value? : Option c.Value) :
    (s.revise c e value?).get? c e = value? :=
  get?_put_self h c value?

theorem get?_revise_of_ne (h : c ≠ d) (s : Store) (e : Nat) (value? : Option c.Value) :
    (s.revise c e value?).get? d e = s.get? d e :=
  get?_put_of_ne h s e value? e

theorem put_self (h : s.isActive e = true) (c : Component) : s.put c e (s.get? c e) = s := by
  have hslot : { s.slot e with components := (s.slot e).components.set c (s.get? c e) } =
      s.slot e := by
    rw [get?, if_pos h, Components.set_get]
  rw [put, hslot]
  exact alter_slot s e 0

/-- Two components of an active entity that are set one after another. -/
theorem put_put (h : s.isActive e = true) (c d : Component) (v : Option c.Value)
    (w : Option d.Value) :
    (s.put c e v).put d e w =
      s.setSlot e { s.slot e with components := ((s.slot e).components.set c v).set d w } := by
  have hslot : (s.put c e v).slot e =
      { s.slot e with components := (s.slot e).components.set c v } := by
    rw [slot_put, if_pos ⟨rfl, lt_capacity_of_isActive h⟩]
  rw [put, hslot]
  simp only [put, setSlot, Array.setIfInBounds_setIfInBounds]

theorem put_put_self (h : s.isActive e = true) (c : Component) (v w : Option c.Value) :
    (s.put c e v).put c e w = s.put c e w := by
  rw [put_put h, Components.set_set]
  rfl

theorem revise_self (h : s.isActive e = true) (c : Component) :
    s.revise c e (s.get? c e) = s := by
  rw [revise, put_self h, Component.moved_self]
  rfl

/-- Different components can be set in any order. -/
theorem revise_comm (h : s.isActive e = true) (hcd : c ≠ d) (v : Option c.Value)
    (w : Option d.Value) :
    (s.revise c e v).revise d e w = (s.revise d e w).revise c e v := by
  have hstep {c d : Component} (hcd : c ≠ d) (v : Option c.Value) (w : Option d.Value) :
      (s.revise c e v).revise d e w =
        { (s.put c e v).put d e w with
          revision := s.revision + c.moved (s.get? c e) v + d.moved (s.get? d e) w } := by
    rw [revise, get?_revise_of_ne hcd]
    rfl
  rw [hstep hcd, hstep hcd.symm, put_put h, put_put h, Components.set_comm hcd,
    Nat.add_right_comm]

/-- Of two values of a component that selectors do not read the later one counts. -/
theorem revise_revise (h : s.isActive e = true) (hc : c.affectsSelection = false)
    (v w : Option c.Value) : (s.revise c e v).revise c e w = s.revise c e w := by
  have hfirst : s.revise c e v = s.put c e v := by
    rw [revise, Component.moved_of_not_affects hc]
    rfl
  have hput : (s.put c e v).put c e w = s.put c e w := put_put_self h c v w
  rw [hfirst, revise, hput, Component.moved_of_not_affects hc, revise,
    Component.moved_of_not_affects hc]
  rfl

/-- An access for writing raises the revision as far as the value that is put. -/
theorem bumpFor_put_eq_revise {value? : Option c.Value}
    (h : weight c = c.moved (s.get? c e) value?) :
    (s.bumpFor c).put c e value? = s.revise c e value? := by
  rw [bumpFor_eq, h]
  rfl

/-- What is obtained with an initial value and put back is put. -/
theorem getOrInsert_put (h : s.isActive e = true) (hc : c.affectsSelection = false)
    (initial : c.Value) :
    ∃ t, s.getOrInsert c e initial = (t, .ok ((s.get? c e).getD initial)) ∧
      ∀ value?, t.put c e value? = s.put c e value? := by
  cases hget : s.get? c e with
  | some value =>
      refine ⟨s, ?_, fun _ => rfl⟩
      simp [getOrInsert, h, has, hget, access_of_active h hc]
  | none =>
      have hinsert : (s.insert c e initial).1 = s.put c e (some initial) := by
        simp [insert, h, bumpFor_of_not_affects hc]
      have hactive : (s.put c e (some initial)).isActive e = true :=
        (isActive_put s c e _ e).trans h
      refine ⟨s.put c e (some initial), ?_, put_put_self h c (some initial)⟩
      simp [getOrInsert, h, has, hget, hinsert, access_of_active hactive hc, get?_put_self h]

end Store

end EntityRules
