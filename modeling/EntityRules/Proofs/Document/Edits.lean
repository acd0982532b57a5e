import EntityRules.Document.Write
import EntityRules.Proofs.Entity.Pools

/-!
# A written document as a run of edits

What a document does to an entity depends on the components of this entity alone.  For given
components there is one list of edits that every store with these components performs when the
document is written, together with the failures that are reported.

**Results.**
* `slot_perform`: an edit of an active entity changes its components by `StoreAction.edit`.
* `planned_writeField`: the edits of one field, one case per field.
* `planned_write`: the edits of a document.
* `edits_of_write`, `sameActivity_of_write`: a document that is written.
-/

namespace EntityRules

namespace StoreAction

/-- The operations on components of one entity. -/
def Edits (e : Nat) : StoreAction → Prop
  | .insert _ i _ => i = e
  | .modify _ i _ => i = e
  | .remove _ i => i = e
  | .getOrInsert _ i _ _ => i = e
  | _ => False

/-- The components of an active entity after an operation on them. -/
def edit (k : Components) : StoreAction → Components
  | .insert c _ value => k.set c (some value)
  | .modify c _ change => (k.get c).elim k fun value => k.set c (some (change value))
  | .remove c _ => (k.get c).elim k fun _ => k.set c none
  | .getOrInsert c _ initial change => k.set c (some (change ((k.get c).getD initial)))
  | _ => k

end StoreAction

namespace Store

variable {s t : Store} {e : Nat} {k : Components} {a : StoreAction}

theorem isActive_of_slot (h : s.slot e = ⟨true, k⟩) : s.isActive e = true := by
  rw [isActive, h]

theorem get?_of_slot (h : s.slot e = ⟨true, k⟩) (c : Component) : s.get? c e = k.get c := by
  rw [get?, isActive_of_slot h, if_pos rfl, h]

theorem slot_put_of_slot (h : s.slot e = ⟨true, k⟩) (c : Component) (v : Option c.Value) :
    (s.put c e v).slot e = ⟨true, k.set c v⟩ := by
  rw [slot_put, if_pos ⟨rfl, lt_capacity_of_isActive (isActive_of_slot h)⟩, h]

/-- An edit of an active entity. -/
theorem slot_perform (h : s.slot e = ⟨true, k⟩) (ha : a.Edits e) :
    (s.perform a).slot e = ⟨true, a.edit k⟩ := by
  have hactive := isActive_of_slot h
  have hbump (c : Component) : (s.bumpFor c).slot e = ⟨true, k⟩ := (slot_bumpFor s c e).trans h
  cases a with
  | activate pool => exact ha.elim
  | deactivate i => exact ha.elim
  | resetScene => exact ha.elim
  | insert c i value =>
      obtain rfl : i = e := ha
      simp only [perform, insert, hactive, if_true]
      exact slot_put_of_slot (hbump c) c (some value)
  | modify c i change =>
      obtain rfl : i = e := ha
      simp only [perform, modify, access, hactive, if_true, h, StoreAction.edit]
      cases hget : k.get c with
      | none => exact hbump c
      | some value => exact slot_put_of_slot (hbump c) c (some (change value))
  | remove c i =>
      obtain rfl : i = e := ha
      simp only [perform, remove, get?_of_slot h, StoreAction.edit]
      cases hget : k.get c with
      | none => exact h
      | some value =>
          rw [bumpFor_put]
          exact slot_put_of_slot (hbump c) c none
  | getOrInsert c i initial change =>
      obtain rfl : i = e := ha
      simp only [perform, getOrInsert, hactive, if_true, has, get?_of_slot h, StoreAction.edit]
      cases hget : k.get c with
      | none =>
          have hslot : (s.insert c i initial).1.slot i = ⟨true, k.set c (some initial)⟩ := by
            simp only [insert, hactive, if_true]
            exact slot_put_of_slot (hbump c) c (some initial)
          have hbumped := (slot_bumpFor (s.insert c i initial).1 c i).trans hslot
          simp only [Option.isSome_none, Bool.false_eq_true, if_false, access,
            isActive_of_slot hslot, if_true, hslot, Components.get_set_self]
          rw [slot_put_of_slot hbumped, Components.set_set]
          rfl
      | some value =>
          simp only [Option.isSome_some, if_true, access, hactive, h, hget]
          exact slot_put_of_slot (hbump c) c (some (change value))

/-- Edits leave the activity of all entities. -/
theorem sameActivity_perform (s : Store) (ha : a.Edits e) : SameActivity s (s.perform a) := by
  cases a with
  | activate pool => exact ha.elim
  | deactivate i => exact ha.elim
  | resetScene => exact ha.elim
  | insert c i value => exact sameActivity_insert s c i value
  | modify c i change => exact sameActivity_modify s c i _
  | remove c i => exact sameActivity_remove s c i
  | getOrInsert c i initial change =>
      have hobtain := sameActivity_getOrInsert s c i initial
      simp only [perform]
      split
      · next t value heq =>
          rw [heq] at hobtain
          have hactive : s.isActive i = true := by
            cases hactive : s.isActive i with
            | true => rfl
            | false => simp [getOrInsert, hactive] at heq
          exact hobtain.trans (sameActivity_put ((hobtain.active i).trans hactive) c _)
      · next t fault heq =>
          rw [heq] at hobtain
          exact hobtain

/-- The components of an active entity after edits. -/
theorem slot_performAll {actions : List StoreAction} (h : s.slot e = ⟨true, k⟩)
    (hactions : ∀ a ∈ actions, a.Edits e) :
    (actions.foldl perform s).slot e = ⟨true, actions.foldl StoreAction.edit k⟩ := by
  induction actions generalizing s k with
  | nil => exact h
  | cons a actions ih =>
      obtain ⟨ha, hrest⟩ := List.forall_mem_cons.mp hactions
      exact ih (slot_perform h ha) hrest

theorem sameActivity_performAll {actions : List StoreAction} (s : Store)
    (hactions : ∀ a ∈ actions, a.Edits e) : SameActivity s (actions.foldl perform s) := by
  induction actions generalizing s with
  | nil => exact SameActivity.refl s
  | cons a actions ih =>
      obtain ⟨ha, hrest⟩ := List.forall_mem_cons.mp hactions
      exact (sameActivity_perform s ha).trans (ih (s.perform a) hrest)

end Store

namespace Document

variable {e : Nat} {k : Components}

section Fields

/-- For an entity with given components, a field performs one list of edits in every store. -/
def Planned (e : Nat) (k : Components) (field : Store → FieldOutcome) : Prop :=
  ∃ (actions : List StoreAction) (failures : List Failure) (written : Bool),
    (∀ a ∈ actions, a.Edits e) ∧
    ∀ s : Store, s.slot e = ⟨true, k⟩ → field s = ⟨actions.foldl Store.perform s, failures, written⟩

theorem Planned.congr {field other : Store → FieldOutcome} (h : Planned e k field)
    (heq : ∀ s : Store, s.slot e = ⟨true, k⟩ → other s = field s) : Planned e k other := by
  obtain ⟨actions, failures, written, hedits, hplan⟩ := h
  refine ⟨actions, failures, written, hedits, ?_⟩
  intro s hs
  rw [heq s hs]
  exact hplan s hs

theorem planned_none (e : Nat) (k : Components) (failures : List Failure) (written : Bool) :
    Planned e k fun s => ⟨s, failures, written⟩ :=
  ⟨[], failures, written, by simp, fun _ _ => rfl⟩

theorem planned_put (e : Nat) (k : Components) (c : Component) (value : c.Value)
    (failures : List Failure) : Planned e k fun s => put s c e value failures := by
  refine ⟨[.insert c e value], failures, true, by simp [StoreAction.Edits], ?_⟩
  intro s hs
  simp [put, Store.insert, Store.isActive_of_slot hs, Store.perform]

/-- The branch that is taken is the same in every store. -/
theorem Planned.ite {field other : Store → FieldOutcome} (p : Prop) [Decidable p]
    (h : Planned e k field) (h' : Planned e k other) :
    Planned e k fun s => if p then field s else other s := by
  by_cases hp : p
  · exact h.congr fun s _ => if_pos hp
  · exact h'.congr fun s _ => if_neg hp

theorem planned_writeId (e : Nat) (k : Components) (value : Json) :
    Planned e k fun s => writeId s e value := by
  cases value with
  | str name =>
      by_cases hname : name = ""
      · simp only [writeId, hname, if_true]
        exact planned_none e k _ _
      · have hplanned := (planned_none e k [] true).ite (k.get .name = some name)
          (planned_put e k .name name [])
        refine hplanned.congr ?_
        intro s hs
        simp only [writeId, hname, if_false, Store.get?_of_slot hs]
  | null | bool | num | arr | obj => exact planned_none e k _ _

theorem planned_writeTags (e : Nat) (k : Components) (value : Json) :
    Planned e k fun s => writeTags s e value := by
  cases value with
  | arr items =>
      cases hread : toTags items .empty with
      | error message =>
          simp only [writeTags, hread]
          exact planned_none e k _ _
      | ok tags =>
          have hplanned := (planned_none e k [] true).ite (k.get .tags = some tags)
            (planned_put e k .tags tags [])
          refine hplanned.congr ?_
          intro s hs
          simp only [writeTags, hread, Store.get?_of_slot hs]
  | null | bool | num | str | obj => exact planned_none e k _ _

theorem planned_writeParent (e : Nat) (k : Components) (value : Json) :
    Planned e k fun s => writeParent s e value := by
  cases value with
  | null =>
      refine ⟨[.remove .parent e], [], true, by simp [StoreAction.Edits], ?_⟩
      intro s _
      rfl
  | str text =>
      cases hread : Selector.read text with
      | error fault =>
          simp only [writeParent, hread]
          exact planned_none e k _ _
      | ok selector =>
          simp only [writeParent, hread]
          exact planned_put e k .parent selector []
  | bool | num | arr | obj => exact planned_none e k _ _

theorem planned_writeProperties (e : Nat) (k : Components) (value : Json) :
    Planned e k fun s => writeProperties s e value := by
  cases value with
  | obj patch =>
      by_cases hvalue : ((propertyChanges patch).any fun change => change.2.isSome) = true
      · refine ⟨[.getOrInsert .properties e [] fun properties =>
            changeProperties properties (propertyChanges patch)],
          propertyFailures patch, true, by simp [StoreAction.Edits], ?_⟩
        intro s hs
        obtain ⟨t, hobtain, -, -⟩ := Store.getOrInsert_of_active (Store.isActive_of_slot hs)
          (c := .properties) rfl []
        simp [writeProperties, hvalue, Store.perform, hobtain]
      · refine ⟨[.modify .properties e fun properties =>
            changeProperties properties (propertyChanges patch)],
          propertyFailures patch, true, by simp [StoreAction.Edits], ?_⟩
        intro s _
        simp only [writeProperties, hvalue]
        rfl
  | null | bool | num | str | arr => exact planned_none e k _ _

theorem planned_writeTransform (e : Nat) (k : Components) (value : Json) :
    Planned e k fun s => writeTransform s e value := by
  cases value with
  | obj patch =>
      generalize hp : patchTransform ((k.get .transform).getD {}) patch = p
      have hplanned := (planned_put e k .transform p.value p.failures.reverse).ite
        (p.applied = true) (planned_none e k p.failures.reverse true)
      refine hplanned.congr ?_
      intro s hs
      simp only [writeTransform, Store.get?_of_slot hs, hp]
  | null | bool | num | str | arr => exact planned_none e k _ _

theorem planned_writeFlex (e : Nat) (k : Components) (value : Json) :
    Planned e k fun s => writeFlex s e value := by
  cases value with
  | obj patch =>
      generalize hp : patchFlex ((k.get .flex).getD .empty) patch = p
      have hplanned := (planned_put e k .flex p.value p.failures.reverse).ite (p.applied = true)
        (planned_none e k p.failures.reverse true)
      refine hplanned.congr ?_
      intro s hs
      simp only [writeFlex, Store.get?_of_slot hs, hp]
  | null | bool | num | str | arr => exact planned_none e k _ _

/-- A field that is known is planned, and one that is not is so in every store. -/
theorem planned_writeField (e : Nat) (k : Components) (name : String) (value : Json) :
    (∀ s, writeField s e name value = none) ∨
      ∃ field, Planned e k field ∧ ∀ s, writeField s e name value = some (field s) := by
  by_cases hid : name = "id"
  · right
    exact ⟨_, planned_writeId e k value, fun s => by simp [writeField, hid]⟩
  by_cases htags : name = "tags"
  · right
    exact ⟨_, planned_writeTags e k value, fun s => by simp [writeField, htags]⟩
  by_cases htransform : name = "transform"
  · right
    exact ⟨_, planned_writeTransform e k value, fun s => by simp [writeField, htransform]⟩
  by_cases hproperties : name = "properties"
  · right
    exact ⟨_, planned_writeProperties e k value, fun s => by simp [writeField, hproperties]⟩
  by_cases hparent : name = "parent"
  · right
    exact ⟨_, planned_writeParent e k value, fun s => by simp [writeField, hparent]⟩
  by_cases hflex : name = "flex"
  · right
    exact ⟨_, planned_writeFlex e k value, fun s => by simp [writeField, hflex]⟩
  · left
    intro s
    simp [writeField, hid, htags, htransform, hproperties, hparent, hflex]

end Fields

section Documents

/-- The fields of a document, one after another. -/
theorem planned_writeFields (e : Nat) (k : Components) (fields : Fields) :
    ∃ (actions : List StoreAction) (failures : List Failure) (count : Nat),
      (∀ a ∈ actions, a.Edits e) ∧
      ∀ s : Store, s.slot e = ⟨true, k⟩ →
        writeFields s e fields = ⟨actions.foldl Store.perform s, failures, count⟩ := by
  induction fields generalizing k with
  | nil => exact ⟨[], [], 0, by simp, fun _ _ => rfl⟩
  | cons field fields ih =>
      obtain ⟨name, value⟩ := field
      rcases planned_writeField e k name value with hnone | ⟨field, hplanned, hfield⟩
      · obtain ⟨actions, failures, count, hedits, hplan⟩ := ih k
        refine ⟨actions, failures, count, hedits, ?_⟩
        intro s hs
        rw [writeFields, hnone]
        exact hplan s hs
      · obtain ⟨first, firstFailures, written, hfirst, hdone⟩ := hplanned
        -- the rest of the fields finds the components that the first one leaves
        obtain ⟨rest, restFailures, count, hrest, hplan⟩ := ih (first.foldl StoreAction.edit k)
        refine ⟨first ++ rest, firstFailures ++ restFailures,
          if written then count + 1 else count, ?_, ?_⟩
        · intro a ha
          rcases List.mem_append.mp ha with ha | ha
          · exact hfirst a ha
          · exact hrest a ha
        · intro s hs
          have hslot := Store.slot_performAll hs hfirst
          rw [writeFields, hfield]
          simp only [hdone s hs, hplan _ hslot, List.foldl_append]

/-- The document of an entity with given components: it is refused in every store, or it performs
one list of edits in every store. -/
theorem planned_write (e : Nat) (k : Components) (document : Json) :
    (∃ fault, ∀ s : Store, s.slot e = ⟨true, k⟩ → write document e s = .error fault) ∨
      ∃ (actions : List StoreAction) (failures : List Failure) (count : Nat),
      (∀ a ∈ actions, a.Edits e) ∧
        ∀ s : Store, s.slot e = ⟨true, k⟩ →
          write document e s = .ok ⟨actions.foldl Store.perform s, failures, count⟩ := by
  cases document with
  | obj fields =>
      right
      obtain ⟨actions, failures, count, hedits, hplan⟩ := planned_writeFields e k fields
      refine ⟨actions, failures, count, hedits, ?_⟩
      intro s hs
      rw [write, if_pos (Store.isActive_of_slot hs), hplan s hs]
  | null | bool | num | str | arr =>
      left
      refine ⟨.conversion "document" "expected an object", ?_⟩
      intro s hs
      simp only [write, Store.isActive_of_slot hs, if_true]

variable {s : Store} {document : Json} {o : Outcome}

theorem write_of_not_active (h : s.isActive e = false) (document : Json) :
    write document e s = .error (.staleReference e) := by
  simp [write, h]

/-- A document that is written edits its entity. -/
theorem edits_of_write (h : write document e s = .ok o) :
    ∃ actions : List StoreAction,
      (∀ a ∈ actions, a.Edits e) ∧ o.store = actions.foldl Store.perform s := by
  cases hactive : s.isActive e with
  | false =>
      rw [write_of_not_active hactive] at h
      cases h
  | true =>
      have hslot : s.slot e = ⟨true, (s.slot e).components⟩ := by
        rw [← hactive, Store.isActive]
      rcases planned_write e (s.slot e).components document with
        ⟨fault, hfault⟩ | ⟨actions, failures, count, hedits, hplan⟩
      · rw [hfault s hslot] at h
        cases h
      · rw [hplan s hslot] at h
        obtain rfl := Except.ok.inj h
        exact ⟨actions, hedits, rfl⟩

/-- A document that is written leaves the activity of all entities. -/
theorem sameActivity_of_write (h : write document e s = .ok o) : Store.SameActivity s o.store := by
  obtain ⟨actions, hedits, hstore⟩ := edits_of_write h
  rw [hstore]
  exact Store.sameActivity_performAll s hedits

end Documents

end Document
end EntityRules
