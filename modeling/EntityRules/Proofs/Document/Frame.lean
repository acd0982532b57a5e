import EntityRules.Document.Write
import EntityRules.Proofs.Entity.Store

/-!
# What a document written to one entity leaves alone

The document of an entity shows its slot and nothing else, and every writer of a field works on
the slot of its entity only.  So a document written to one entity does not change the document
of another.

**Results.**
* `read?_congr`: the document depends on the slot.
* `read?_eq_some_iff`: the entities that have a document.
* `sameElsewhere_write`, `sameElsewhere_writeTo`: what a written document leaves as it was.
-/

namespace EntityRules
namespace Document

open Store (SameElsewhere)

variable {s t : Store} {e i : Nat}

section Reading

theorem read?_congr (h : t.slot e = s.slot e) : read? t e = read? s e := by
  have hactive : t.isActive e = s.isActive e := by
    rw [Store.isActive, Store.isActive, h]
  rw [read?, read?, members, members, hactive, h]

theorem read?_of_sameElsewhere (h : SameElsewhere e s t) (hi : i ≠ e) :
    read? t i = read? s i :=
  read?_congr (h i hi)

/-- The entities that are active have a document. -/
theorem read?_eq_some_iff {document : Json} :
    read? s e = some document ↔ s.isActive e = true ∧ .obj (members s e) = document := by
  rw [read?]
  split
  · next hactive => rw [Option.some_inj, and_iff_right hactive]
  · next hgone => exact iff_of_false (Option.some_ne_none document).symm fun h => hgone h.1

end Reading

section Fields

theorem sameElsewhere_refused (s : Store) (e : Nat) (fault : Failure) :
    SameElsewhere e s (refused s fault).store :=
  SameElsewhere.refl e s

theorem sameElsewhere_put (s : Store) (c : Component) (e : Nat) (value : c.Value)
    (failures : List Failure) : SameElsewhere e s (put s c e value failures).store := by
  have hinsert := Store.sameElsewhere_insert s c e value
  simp only [put]
  split
  · next heq =>
      rw [heq] at hinsert
      exact hinsert
  · next heq =>
      rw [heq] at hinsert
      exact hinsert

theorem sameElsewhere_writeId (s : Store) (e : Nat) (value : Json) :
    SameElsewhere e s (writeId s e value).store := by
  simp only [writeId]
  split
  · split
    · exact sameElsewhere_refused s e _
    · split
      · exact SameElsewhere.refl e s
      · exact sameElsewhere_put s .name e _ []
  · exact sameElsewhere_refused s e _

theorem sameElsewhere_writeTags (s : Store) (e : Nat) (value : Json) :
    SameElsewhere e s (writeTags s e value).store := by
  simp only [writeTags]
  split
  · split
    · exact sameElsewhere_refused s e _
    · split
      · exact SameElsewhere.refl e s
      · exact sameElsewhere_put s .tags e _ []
  · exact sameElsewhere_refused s e _

theorem sameElsewhere_writeParent (s : Store) (e : Nat) (value : Json) :
    SameElsewhere e s (writeParent s e value).store := by
  simp only [writeParent]
  split
  · exact Store.sameElsewhere_remove s .parent e
  · split
    · exact sameElsewhere_put s .parent e _ []
    · exact sameElsewhere_refused s e _
  · exact sameElsewhere_refused s e _

theorem sameElsewhere_writeProperties (s : Store) (e : Nat) (value : Json) :
    SameElsewhere e s (writeProperties s e value).store := by
  have hobtain := Store.sameElsewhere_getOrInsert s .properties e []
  simp only [writeProperties]
  split
  · split
    · split
      · next heq =>
          rw [heq] at hobtain
          exact hobtain.trans (Store.sameElsewhere_put _ .properties e _)
      · next heq =>
          rw [heq] at hobtain
          exact hobtain
    · exact Store.sameElsewhere_modify s .properties e _
  · exact sameElsewhere_refused s e _

theorem sameElsewhere_writeTransform (s : Store) (e : Nat) (value : Json) :
    SameElsewhere e s (writeTransform s e value).store := by
  simp only [writeTransform]
  split
  · split
    · exact sameElsewhere_put s .transform e _ _
    · exact SameElsewhere.refl e s
  · exact sameElsewhere_refused s e _

theorem sameElsewhere_writeFlex (s : Store) (e : Nat) (value : Json) :
    SameElsewhere e s (writeFlex s e value).store := by
  simp only [writeFlex]
  split
  · split
    · exact sameElsewhere_put s .flex e _ _
    · exact SameElsewhere.refl e s
  · exact sameElsewhere_refused s e _

theorem sameElsewhere_writeField {key : String} {value : Json} {w : FieldOutcome}
    (h : writeField s e key value = some w) : SameElsewhere e s w.store := by
  simp only [writeField] at h
  split at h
  · obtain rfl := Option.some.inj h
    exact sameElsewhere_writeId s e value
  split at h
  · obtain rfl := Option.some.inj h
    exact sameElsewhere_writeTags s e value
  split at h
  · obtain rfl := Option.some.inj h
    exact sameElsewhere_writeTransform s e value
  split at h
  · obtain rfl := Option.some.inj h
    exact sameElsewhere_writeProperties s e value
  split at h
  · obtain rfl := Option.some.inj h
    exact sameElsewhere_writeParent s e value
  split at h
  · obtain rfl := Option.some.inj h
    exact sameElsewhere_writeFlex s e value
  · nomatch h

end Fields

section Documents

theorem sameElsewhere_writeFields (s : Store) (e : Nat) (fields : Fields) :
    SameElsewhere e s (writeFields s e fields).store := by
  induction fields generalizing s with
  | nil => exact SameElsewhere.refl e s
  | cons field rest ih =>
      obtain ⟨key, value⟩ := field
      cases hw : writeField s e key value with
      | none =>
          simp only [writeFields, hw]
          exact ih s
      | some w =>
          simp only [writeFields, hw]
          exact (sameElsewhere_writeField hw).trans (ih w.store)

/-- A document that is written changes the slot of its entity only. -/
theorem sameElsewhere_write {document : Json} {o : Outcome} (h : write document e s = .ok o) :
    SameElsewhere e s o.store := by
  simp only [write] at h
  split at h
  · split at h
    · next fields =>
        obtain rfl := Except.ok.inj h
        exact sameElsewhere_writeFields s e fields
    · nomatch h
  · nomatch h

/-- The store after a document is written to an entity; one that is refused changes nothing. -/
def writeTo (document : Json) (e : Nat) (s : Store) : Store :=
  match write document e s with
  | .ok o => o.store
  | .error _ => s

theorem sameElsewhere_writeTo (document : Json) (e : Nat) (s : Store) :
    SameElsewhere e s (writeTo document e s) := by
  simp only [writeTo]
  split
  · next o hwrite => exact sameElsewhere_write hwrite
  · exact SameElsewhere.refl e s

end Documents

end Document
end EntityRules
