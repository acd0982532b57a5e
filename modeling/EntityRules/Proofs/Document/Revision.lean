import EntityRules.Proofs.Document.Members

/-!
# Written documents and the revision

The fields of a document set the components of their keys one after another.  The revision grows by
one for the name and by one for the tags, if these are others afterwards, and by nothing else.  A
document that is written again finds all components as it would leave them.

**Results.**
* `takeField_eq`: a field sets the component of its key.
* `store_writeFields`, `failures_writeFields`: all fields.
* `revision_writeFields`: how far they raise the revision.
* `write_settles`: how far a document raises the revision, and the document written again.
-/

namespace EntityRules

namespace Document

open Store (SameElsewhere)

variable {s t : Store} {e : Nat} {c : Component} {given : Json}

/-! ## Objects and keys -/

/-- An object that holds each key once, and so do the objects that are its values. -/
structure Keyed (fields : Fields) : Prop where
  distinct : Assoc.Distinct fields
  members : ∀ entry ∈ fields, ∀ patch ∈ entry.2.fields?, Assoc.Distinct patch

instance (fields : Fields) : Decidable (Keyed fields) :=
  decidable_of_iff
    (Assoc.Distinct fields ∧ ∀ entry ∈ fields, ∀ patch ∈ entry.2.fields?, Assoc.Distinct patch)
    ⟨fun h => ⟨h.1, h.2⟩, fun h => ⟨h.distinct, h.members⟩⟩

/-- The component of a key. -/
def componentOf? (name : String) : Option Component := inKeyOrder.find? fun c => key c = name

/-- What is reported when a field is written. -/
def reported (entry : String × Json) : List Failure :=
  match componentOf? entry.1 with
  | some c => faults entry.2 c
  | none => []

/-! ## Documents -/

section Documents

variable {fields : Fields} {name : String}

theorem componentOf?_key (c : Component) : componentOf? (key c) = some c := by
  cases c <;> rfl

theorem key_of_componentOf? (h : componentOf? name = some c) : key c = name := by
  have hkey := List.find?_some h
  exact of_decide_eq_true hkey

/-- A field sets the component of its key, if there is one. -/
theorem takeField_eq (hactive : t.isActive e = true) (entry : String × Json) :
    takeField e t entry =
      match componentOf? entry.1 with
      | some c => t.revise c e (becomes entry.2 c (t.get? c e))
      | none => t := by
  obtain ⟨name, given⟩ := entry
  cases hw : writeField t e name given with
  | none =>
      simp only [takeField, hw]
      split
      · next c hc =>
          -- what is read only is left
          obtain rfl := writeField_eq_none_iff.mp hw c (key_of_componentOf? hc)
          exact (Store.revise_self hactive .layout).symm
      · rfl
  | some w =>
      obtain ⟨c, rfl⟩ := exists_key_of_writeField hw
      simp only [takeField, hw, componentOf?_key]
      exact (revises_writeField hactive hw).store

theorem isActive_takeField (hactive : t.isActive e = true) (entry : String × Json) :
    (takeField e t entry).isActive e = true := by
  rw [takeField_eq hactive]
  split
  · next c _ => rw [Store.isActive_revise, hactive]
  · exact hactive

theorem store_writeFields (t : Store) (e : Nat) (fields : Fields) :
    (writeFields t e fields).store = fields.foldl (takeField e) t := by
  induction fields generalizing t with
  | nil => rfl
  | cons entry fields ih =>
      obtain ⟨name, given⟩ := entry
      rw [List.foldl_cons, ← ih]
      cases hw : writeField t e name given with
      | none => simp only [writeFields, takeField, hw]
      | some w => simp only [writeFields, takeField, hw]

theorem isActive_writeFields (hactive : t.isActive e = true) (fields : Fields) :
    (writeFields t e fields).store.isActive e = true := by
  rw [store_writeFields]
  induction fields generalizing t with
  | nil => exact hactive
  | cons entry fields ih => exact ih (isActive_takeField hactive entry)

/-- What is reported depends on the fields alone. -/
theorem failures_writeFields (hactive : t.isActive e = true) (fields : Fields) :
    (writeFields t e fields).failures = fields.flatMap reported := by
  induction fields generalizing t with
  | nil => rfl
  | cons entry fields ih =>
      obtain ⟨name, given⟩ := entry
      rw [List.flatMap_cons]
      cases hw : writeField t e name given with
      | none =>
          have hnothing : reported (name, given) = [] := by
            rw [reported]
            split
            · next c hc =>
                obtain rfl := writeField_eq_none_iff.mp hw c (key_of_componentOf? hc)
                rfl
            · rfl
          simp only [writeFields, hw, hnothing, List.nil_append]
          exact ih hactive
      | some w =>
          obtain ⟨c, rfl⟩ := exists_key_of_writeField hw
          have hrevises := revises_writeField hactive hw
          have hreported : reported (key c, given) = w.failures := by
            simp only [reported, componentOf?_key, hrevises.failures]
          have hdone : w.store.isActive e = true := by
            rw [hrevises.store, Store.isActive_revise, hactive]
          simp only [writeFields, hw, hreported, ih hdone]

/-- A component without a field stays. -/
theorem get?_writeFields_of_absent (hactive : t.isActive e = true)
    (hdistinct : Assoc.Distinct fields) (habsent : Assoc.find? (key c) fields = none) :
    (writeFields t e fields).store.get? c e = t.get? c e := by
  rw [(get?_writeFields hactive hdistinct).2 c, becomesUnder, habsent]

/-- The revision grows by one for the name and by one for the tags, if they change. -/
theorem revision_writeFields (hactive : t.isActive e = true) (hdistinct : Assoc.Distinct fields) :
    (writeFields t e fields).store.revision =
      t.revision +
        Component.moved .name (t.get? .name e) ((writeFields t e fields).store.get? .name e) +
        Component.moved .tags (t.get? .tags e) ((writeFields t e fields).store.get? .tags e) := by
  induction fields generalizing t with
  | nil =>
      simp only [writeFields, Component.moved_self]
      rfl
  | cons entry fields ih =>
      obtain ⟨name, given⟩ := entry
      obtain ⟨hnew, hrest⟩ := List.nodup_cons.mp hdistinct
      have hactive' := isActive_takeField hactive (name, given)
      have hstore : (writeFields t e ((name, given) :: fields)).store =
          (writeFields (takeField e t (name, given)) e fields).store := by
        rw [store_writeFields, store_writeFields, List.foldl_cons]
      have htake := takeField_eq hactive (name, given)
      rw [hstore, ih hactive' hrest]
      cases hc : componentOf? name with
      | none =>
          simp only [hc] at htake
          rw [htake]
      | some c =>
          -- no later field has the key of the first one
          have hlast : Assoc.find? (key c) fields = none := by
            rw [key_of_componentOf? hc]
            refine Assoc.find?_eq_none_iff.mpr fun entry hmem heq => hnew ?_
            exact List.mem_map.mpr ⟨entry, hmem, heq⟩
          have hkept := get?_writeFields_of_absent hactive' hrest hlast
          simp only [hc] at htake
          rw [htake] at hkept ⊢
          generalize becomes given c (t.get? c e) = value? at hkept ⊢
          rw [Store.get?_revise_self hactive] at hkept
          cases c with
          | name =>
              rw [hkept, Store.get?_revise_self hactive, Component.moved_self,
                Store.get?_revise_of_ne (by decide)]
              rfl
          | tags =>
              rw [hkept, Store.get?_revise_self hactive, Component.moved_self,
                Store.get?_revise_of_ne (by decide)]
              exact Nat.add_right_comm t.revision _ _
          | transform | properties | parent | flex | layout =>
              rw [Store.get?_revise_of_ne (by decide), Store.get?_revise_of_ne (by decide)]
              rfl

/-- Fields that leave their components as they are leave the store as it is. -/
theorem store_writeFields_of_settled (hactive : t.isActive e = true)
    (h : ∀ entry ∈ fields, ∀ c, key c = entry.1 → becomes entry.2 c (t.get? c e) = t.get? c e) :
    (writeFields t e fields).store = t := by
  rw [store_writeFields]
  induction fields with
  | nil => rfl
  | cons entry fields ih =>
      obtain ⟨hentry, hfields⟩ := List.forall_mem_cons.mp h
      have hsame : takeField e t entry = t := by
        rw [takeField_eq hactive]
        split
        · next c hc => rw [hentry c (key_of_componentOf? hc), Store.revise_self hactive]
        · rfl
      rw [List.foldl_cons, hsame, ih hfields]

/-- **A written document.**  Each component becomes what its field makes of it.  The revision grows
by one for the name and by one for the tags, if they are others than before, and the other entities
stay.  Written again the document changes nothing, whatever is wrong with its fields. -/
theorem write_settles (hactive : s.isActive e = true)
    (hordered : ∀ c v, s.get? c e = some v → c.Ordered v) {fields : Fields}
    (hkeyed : Keyed fields) :
    ∃ o, write (.obj fields) e s = .ok o ∧
      (∀ c, o.store.get? c e = becomesUnder fields c (s.get? c e)) ∧
      o.store.revision = s.revision +
        (if o.store.get? .name e = s.get? .name e then 0 else 1) +
        (if o.store.get? .tags e = s.get? .tags e then 0 else 1) ∧
      SameElsewhere e s o.store ∧
      ∃ o', write (.obj fields) e o.store = .ok o' ∧ o'.store = o.store := by
  obtain ⟨hactive', hcomponents⟩ := get?_writeFields hactive hkeyed.distinct
  have hwrite : write (.obj fields) e s = .ok (writeFields s e fields) := if_pos hactive
  refine ⟨_, hwrite, hcomponents, revision_writeFields hactive hkeyed.distinct,
    sameElsewhere_write hwrite, _, if_pos hactive', store_writeFields_of_settled hactive' ?_⟩
  rintro ⟨name, given⟩ hmem c rfl
  have hfind := (Assoc.find?_eq_some_iff hkeyed.distinct).mpr hmem
  rw [hcomponents, becomesUnder, hfind]
  refine becomes_becomes ?_ (hordered c)
  rintro patch rfl
  exact hkeyed.members _ hmem patch rfl

/-- A document for `furnished` in which something is wrong with most of the fields. -/
def mended : Fields :=
  [("flex", .obj [("direction", .str "diagonal"), ("grow", .null)]), ("id", .str "gate"),
    ("parent", .str "("), ("properties", .obj [("locked", .null), ("note", .arr [])]),
    ("tags", .ofStrings ["wooden", "wooden"]), ("transform", .obj [("scale", .str "large")])]

theorem ordered_furnished (c : Component) (v : c.Value) (h : furnished.get? c 0 = some v) :
    c.Ordered v := by
  cases c with
  | properties => exact (restorable_furnished .properties v h).1
  | name | tags | transform | parent | flex | layout => trivial

theorem write_settles_mended :
    furnished.isActive 0 = true ∧
      (∀ c v, furnished.get? c 0 = some v → Component.Ordered c v) ∧ Keyed mended ∧
      ∃ o, write (.obj mended) 0 furnished = .ok o ∧
        (∀ c, o.store.get? c 0 = becomesUnder mended c (furnished.get? c 0)) ∧
        o.store.revision = furnished.revision +
          (if o.store.get? .name 0 = furnished.get? .name 0 then 0 else 1) +
          (if o.store.get? .tags 0 = furnished.get? .tags 0 then 0 else 1) ∧
        SameElsewhere 0 furnished o.store ∧
        ∃ o', write (.obj mended) 0 o.store = .ok o' ∧ o'.store = o.store :=
  ⟨by decide, ordered_furnished, by decide,
    write_settles (by decide) ordered_furnished (by decide)⟩

end Documents

end Document
end EntityRules
