import EntityRules.Proofs.Document.Changes
import EntityRules.Proofs.Document.Merge
import EntityRules.Proofs.Entity.Revise

/-!
# What written fields make of components

Every field of a document sets one component, and what this component becomes depends on the field
and on what it was before.  This holds of any field, also of one that is malformed as a whole or in
parts: what is refused leaves the component as it was, and what is reported depends on the field
alone.

**Results.**
* `revises_writeField`: the store and the failures of a field, one case per component.
* `sets_writeField`: the components after a field.
* `get?_writeFields`: all components after the fields of a document.
* `get?_write`: the same for the document of an entity.
* `everywhere_write`: a property of components that the fields of a document respect.
-/

namespace EntityRules

/-- Every component of every entity has a property. -/
def Store.Everywhere (I : (c : Component) → c.Value → Prop) (s : Store) : Prop :=
  ∀ e c v, s.get? c e = some v → I c v

/-- What an entity has that is left alone it has had before. -/
theorem Store.Everywhere.of_slots {I : (c : Component) → c.Value → Prop} {s t : Store}
    (h : s.Everywhere I) (hslots : ∀ e, t.isActive e = true → t.slot e = s.slot e) :
    t.Everywhere I := by
  intro e c v hv
  cases hactive : t.isActive e with
  | false =>
      rw [Store.get?, hactive] at hv
      cases hv
  | true =>
      refine h e c v ?_
      rwa [Store.get?, Store.isActive, ← hslots e hactive]

namespace Document

open Store (SameElsewhere)

variable {s t : Store} {e : Nat} {c : Component}

/-- What a component becomes when its field is given. -/
def becomes (given : Json) : (c : Component) → Option c.Value → Option c.Value
  | .name, old =>
    match given with
    | .str name => if name = "" then old else some name
    | _ => old
  | .tags, old =>
    match given with
    | .arr items =>
      match toTags items .empty with
      | .ok tags => some tags
      | .error _ => old
    | _ => old
  | .transform, old =>
    match given with
    | .obj patch =>
      let p := patchTransform (old.getD {}) patch
      if p.applied then some p.value else old
    | _ => old
  | .properties, old =>
    match given with
    | .obj patch =>
      let changes := propertyChanges patch
      if changes.any fun change => change.2.isSome then
        some (changeProperties (old.getD []) changes)
      else old.map fun properties => changeProperties properties changes
    | _ => old
  | .parent, old =>
    match given with
    | .null => none
    | .str text =>
      match Selector.read text with
      | .ok parent => some parent
      | .error _ => old
    | _ => old
  | .flex, old =>
    match given with
    | .obj patch =>
      let p := patchFlex (old.getD .empty) patch
      if p.applied then some p.value else old
    | _ => old
  | .layout, old => old

/-- What a component becomes when a document with some fields is written. -/
def becomesUnder (fields : Fields) (c : Component) (old : Option c.Value) : Option c.Value :=
  match Assoc.find? (key c) fields with
  | some given => becomes given c old
  | none => old

/-- What is reported when the field of a component is written. -/
def faults (given : Json) : Component → List Failure
  | .name =>
    match given with
    | .str name => if name = "" then [.conversion "id" "expected a non-empty string"] else []
    | _ => [.conversion "id" "expected a non-empty string"]
  | .tags =>
    match given with
    | .arr items =>
      match toTags items .empty with
      | .ok _ => []
      | .error message => [.conversion "tags" message]
    | _ => [.conversion "tags" "expected a list of strings"]
  | .transform =>
    match given with
    | .obj patch => patch.filterMap (refusal? .transform)
    | _ => [.conversion "transform" "expected an object"]
  | .properties =>
    match given with
    | .obj patch => patch.filterMap (refusal? .properties)
    | _ => [.conversion "properties" "expected an object"]
  | .parent =>
    match given with
    | .null => []
    | .str text =>
      match Selector.read text with
      | .ok _ => []
      | .error fault => [.malformed ("parent selector '" ++ text ++ "'") fault.message]
    | value => [.conversion "parent" (found "a selector string or null" value)]
  | .flex =>
    match given with
    | .obj patch => patch.filterMap (refusal? .flex)
    | _ => [.conversion "flex" "expected an object"]
  | .layout => []

section Fields

variable {given : Json} {w : FieldOutcome}

/-- A field has set its component to what it becomes, and reported what is wrong with it. -/
structure Revises (c : Component) (e : Nat) (given : Json) (t : Store) (w : FieldOutcome) :
    Prop where
  store : w.store = t.revise c e (becomes given c (t.get? c e))
  failures : w.failures = faults given c

theorem revises_same (hactive : t.isActive e = true) {failures : List Failure}
    (hsame : becomes given c (t.get? c e) = t.get? c e) (hfaults : failures = faults given c)
    (written : Bool) : Revises c e given t ⟨t, failures, written⟩ := by
  refine ⟨?_, hfaults⟩
  rw [hsame, Store.revise_self hactive]

theorem revises_put (hactive : t.isActive e = true) {value : c.Value} {failures : List Failure}
    (hvalue : becomes given c (t.get? c e) = some value) (hfaults : failures = faults given c)
    (hmoved : Store.weight c = c.moved (t.get? c e) (some value)) :
    Revises c e given t (put t c e value failures) := by
  have hput : put t c e value failures =
      ⟨(t.bumpFor c).put c e (some value), failures, true⟩ := by
    simp [put, Store.insert, hactive]
  rw [hput]
  refine ⟨?_, hfaults⟩
  rw [hvalue, Store.bumpFor_put_eq_revise hmoved]

theorem revises_writeId (hactive : t.isActive e = true) (given : Json) :
    Revises .name e given t (writeId t e given) := by
  cases given with
  | str name =>
      simp only [writeId]
      split
      · next hempty =>
          refine revises_same hactive ?_ ?_ false
          · exact if_pos hempty
          · exact (if_pos hempty).symm
      · next hempty =>
          have hvalue : becomes (.str name) .name (t.get? .name e) = some name := if_neg hempty
          have hfaults : [] = faults (.str name) .name := (if_neg hempty).symm
          split
          · next hsame => exact revises_same hactive (hvalue.trans hsame.symm) hfaults true
          · next hother =>
              exact revises_put hactive hvalue hfaults (if_neg (Ne.symm hother)).symm
  | null | bool | num | arr | obj => exact revises_same hactive rfl rfl false

theorem revises_writeTags (hactive : t.isActive e = true) (given : Json) :
    Revises .tags e given t (writeTags t e given) := by
  cases given with
  | arr items =>
      cases hread : toTags items .empty with
      | error message =>
          simp only [writeTags, hread]
          refine revises_same hactive ?_ ?_ false
          · simp only [becomes, hread]
          · simp only [faults, hread]
      | ok tags =>
          have hvalue : becomes (.arr items) .tags (t.get? .tags e) = some tags := by
            simp only [becomes, hread]
          have hfaults : [] = faults (.arr items) .tags := by simp only [faults, hread]
          simp only [writeTags, hread]
          split
          · next hsame => exact revises_same hactive (hvalue.trans hsame.symm) hfaults true
          · next hother =>
              exact revises_put hactive hvalue hfaults (if_neg (Ne.symm hother)).symm
  | null | bool | num | str | obj => exact revises_same hactive rfl rfl false

theorem revises_writeParent (hactive : t.isActive e = true) (given : Json) :
    Revises .parent e given t (writeParent t e given) := by
  cases given with
  | null =>
      cases hget : t.get? .parent e with
      | none =>
          have hremove : t.remove .parent e = (t, none) := by simp [Store.remove, hget]
          simp only [writeParent, hremove]
          refine revises_same hactive ?_ rfl true
          exact hget.symm
      | some parent =>
          have hremove : t.remove .parent e =
              ((t.bumpFor .parent).put .parent e none, some parent) := by
            simp [Store.remove, hget, Store.bumpFor_put]
          simp only [writeParent, hremove]
          exact ⟨Store.bumpFor_put_eq_revise rfl, rfl⟩
  | str text =>
      cases hread : Selector.read text with
      | error fault =>
          simp only [writeParent, hread]
          refine revises_same hactive ?_ ?_ false
          · simp only [becomes, hread]
          · simp only [faults, hread]
      | ok parent =>
          simp only [writeParent, hread]
          refine revises_put hactive ?_ ?_ rfl
          · simp only [becomes, hread]
          · simp only [faults, hread]
  | bool | num | arr | obj => exact revises_same hactive rfl rfl false

theorem revises_writeTransform (hactive : t.isActive e = true) (given : Json) :
    Revises .transform e given t (writeTransform t e given) := by
  cases given with
  | obj patch =>
      have hfaults : (patchTransform ((t.get? .transform e).getD {}) patch).failures.reverse =
          faults (.obj patch) .transform := by
        rw [patchTransform_eq, foldl_take_failures patchVector_eq]
        refine List.filterMap_congr fun member _ => ?_
        exact (complaint?_map _ _ _).symm
      simp only [writeTransform]
      split
      · next happlied => exact revises_put hactive (if_pos happlied) hfaults rfl
      · next hignored =>
          refine revises_same hactive ?_ hfaults true
          exact if_neg hignored
  | null | bool | num | str | arr => exact revises_same hactive rfl rfl false

theorem revises_writeFlex (hactive : t.isActive e = true) (given : Json) :
    Revises .flex e given t (writeFlex t e given) := by
  cases given with
  | obj patch =>
      have hfaults : (patchFlex ((t.get? .flex e).getD .empty) patch).failures.reverse =
          faults (.obj patch) .flex := by
        rw [patchFlex_eq_take, foldl_take_failures patchAttribute_eq]
        refine List.filterMap_congr fun member _ => ?_
        exact (complaint?_map _ _ _).symm
      simp only [writeFlex]
      split
      · next happlied => exact revises_put hactive (if_pos happlied) hfaults rfl
      · next hignored =>
          refine revises_same hactive ?_ hfaults true
          exact if_neg hignored
  | null | bool | num | str | arr => exact revises_same hactive rfl rfl false

theorem revises_writeProperties (hactive : t.isActive e = true) (given : Json) :
    Revises .properties e given t (writeProperties t e given) := by
  cases given with
  | obj patch =>
      have hfaults : propertyFailures patch = faults (.obj patch) .properties := by
        refine List.filterMap_congr fun member _ => ?_
        simp only [refusal?, memberChange]
        cases propertyChange member.2 <;> rfl
      simp only [writeProperties]
      split
      · next hvalue =>
          obtain ⟨u, hobtain, hput⟩ := Store.getOrInsert_put hactive (c := .properties) rfl []
          rw [hobtain]
          refine ⟨(hput _).trans ?_, hfaults⟩
          have hbecomes : becomes (.obj patch) .properties (t.get? .properties e) = _ :=
            if_pos hvalue
          rw [hbecomes]
          rfl
      · next hremovals =>
          simp only [Store.modify, Store.access_of_active hactive (c := .properties) rfl]
          cases hget : t.get? .properties e with
          | none =>
              refine revises_same hactive ?_ hfaults true
              rw [hget]
              exact if_neg hremovals
          | some properties =>
              refine ⟨?_, hfaults⟩
              have hbecomes : becomes (.obj patch) .properties (some properties) = _ :=
                if_neg hremovals
              rw [hget, hbecomes]
              rfl
  | null | bool | num | str | arr => exact revises_same hactive rfl rfl false

/-- The field of a component, one case per component. -/
theorem revises_writeField (hactive : t.isActive e = true)
    (hw : writeField t e (key c) given = some w) : Revises c e given t w := by
  cases c with
  | name =>
      obtain rfl := Option.some.inj hw
      exact revises_writeId hactive given
  | tags =>
      obtain rfl := Option.some.inj hw
      exact revises_writeTags hactive given
  | transform =>
      obtain rfl := Option.some.inj hw
      exact revises_writeTransform hactive given
  | properties =>
      obtain rfl := Option.some.inj hw
      exact revises_writeProperties hactive given
  | parent =>
      obtain rfl := Option.some.inj hw
      exact revises_writeParent hactive given
  | flex =>
      obtain rfl := Option.some.inj hw
      exact revises_writeFlex hactive given
  | layout => cases hw

/-- A field has given a component a value, or taken it away, and left the other components. -/
structure Sets (c : Component) (e : Nat) (value? : Option c.Value) (t : Store)
    (w : FieldOutcome) : Prop where
  active : w.store.isActive e = true
  own : w.store.get? c e = value?
  others : ∀ d, d ≠ c → w.store.get? d e = t.get? d e

theorem sets_writeField (hactive : t.isActive e = true)
    (hw : writeField t e (key c) given = some w) :
    Sets c e (becomes given c (t.get? c e)) t w := by
  have hstore := (revises_writeField hactive hw).store
  refine ⟨?_, ?_, fun d hd => ?_⟩
  · rw [hstore, Store.isActive_revise, hactive]
  · rw [hstore, Store.get?_revise_self hactive]
  · rw [hstore, Store.get?_revise_of_ne hd.symm]

end Fields

section Documents

/-- What is written is written under the key of a component. -/
theorem exists_key_of_writeField {name : String} {given : Json} {w : FieldOutcome}
    (hw : writeField t e name given = some w) : ∃ c, key c = name := by
  by_contra hnone
  have hunknown : writeField t e name given = none :=
    writeField_eq_none_iff.mpr fun c hc => absurd ⟨c, hc⟩ hnone
  rw [hunknown] at hw
  cases hw

/-- The components of an entity after the fields of a document. -/
theorem get?_writeFields (hactive : s.isActive e = true) {fields : Fields}
    (hdistinct : Assoc.Distinct fields) :
    (writeFields s e fields).store.isActive e = true ∧
      ∀ c, (writeFields s e fields).store.get? c e = becomesUnder fields c (s.get? c e) := by
  induction fields generalizing s with
  | nil => exact ⟨hactive, fun _ => rfl⟩
  | cons entry fields ih =>
      obtain ⟨name, given⟩ := entry
      obtain ⟨hnew, hrest⟩ := List.nodup_cons.mp hdistinct
      cases hw : writeField s e name given with
      | none =>
          obtain ⟨hdone, hcomponents⟩ := ih hactive hrest
          simp only [writeFields, hw]
          refine ⟨hdone, fun c => (hcomponents c).trans ?_⟩
          by_cases hc : key c = name
          · obtain rfl := writeField_eq_none_iff.mp hw c hc
            simp only [becomesUnder]
            split <;> split <;> rfl
          · rw [becomesUnder, becomesUnder, Assoc.find?, if_neg (Ne.symm hc)]
      | some w =>
          obtain ⟨c, rfl⟩ := exists_key_of_writeField hw
          have hsets := sets_writeField hactive hw
          obtain ⟨hdone, hcomponents⟩ := ih hsets.active hrest
          simp only [writeFields, hw]
          refine ⟨hdone, fun d => (hcomponents d).trans ?_⟩
          by_cases hd : d = c
          · -- no later field has the key of the first one
            subst hd
            have hlast : Assoc.find? (key d) fields = none := by
              refine Assoc.find?_eq_none_iff.mpr fun entry hmem heq => hnew ?_
              exact List.mem_map.mpr ⟨entry, hmem, heq⟩
            rw [becomesUnder, becomesUnder, hlast, Assoc.find?, if_pos rfl]
            exact hsets.own
          · have hne : key c ≠ key d := fun heq => hd (key_injective c d heq).symm
            rw [becomesUnder, becomesUnder, Assoc.find?, if_neg hne, hsets.others d hd]

/-- The components of an entity after a document is written to it. -/
theorem get?_write {fields : Fields} (hdistinct : Assoc.Distinct fields) {o : Outcome}
    (h : write (.obj fields) e s = .ok o) :
    o.store.isActive e = true ∧
      ∀ c, o.store.get? c e = becomesUnder fields c (s.get? c e) := by
  cases hactive : s.isActive e with
  | false =>
      simp [write, hactive] at h
  | true =>
      have hwrite : write (.obj fields) e s = .ok (writeFields s e fields) := if_pos hactive
      obtain rfl := Except.ok.inj (h.symm.trans hwrite)
      exact get?_writeFields hactive hdistinct

end Documents

/-! ## Properties of all components -/

section Properties

variable {I : (c : Component) → c.Value → Prop}

/-- Whether every field of a document leaves a property of its component. -/
def Respects (I : (c : Component) → c.Value → Prop) (document : Json) : Prop :=
  ∀ fields, document = .obj fields → ∀ entry ∈ fields, ∀ c, key c = entry.1 →
    ∀ old v, (∀ w, old = some w → I c w) → becomes entry.2 c old = some v → I c v

theorem writeFields_respects (hactive : s.isActive e = true) {fields : Fields}
    (hrespects : Respects I (.obj fields)) (h : ∀ c v, s.get? c e = some v → I c v) :
    ∀ c v, (writeFields s e fields).store.get? c e = some v → I c v := by
  induction fields generalizing s with
  | nil => exact h
  | cons entry fields ih =>
      obtain ⟨name, given⟩ := entry
      have hrest : Respects I (.obj fields) := by
        rintro _ ⟨⟩ other hmem
        exact hrespects _ rfl other (List.mem_cons_of_mem _ hmem)
      cases hw : writeField s e name given with
      | none =>
          simp only [writeFields, hw]
          exact ih hactive hrest h
      | some w =>
          obtain ⟨c, rfl⟩ := exists_key_of_writeField hw
          have hsets := sets_writeField hactive hw
          simp only [writeFields, hw]
          refine ih hsets.active hrest fun d v hv => ?_
          by_cases hd : d = c
          · subst hd
            rw [hsets.own] at hv
            exact hrespects _ rfl (key d, given) List.mem_cons_self d rfl _ v (h d) hv
          · rw [hsets.others d hd] at hv
            exact h d v hv

/-- A property that the fields of a document respect holds after it is written. -/
theorem everywhere_write {document : Json} (hrespects : Respects I document) {o : Outcome}
    (hwrite : write document e s = .ok o) (h : s.Everywhere I) : o.store.Everywhere I := by
  intro i c v hv
  by_cases hi : i = e
  · subst hi
    simp only [write] at hwrite
    split at hwrite
    · next hactive =>
        split at hwrite
        · obtain rfl := Except.ok.inj hwrite
          exact writeFields_respects hactive hrespects (h i) c v hv
        · cases hwrite
    · cases hwrite
  · rw [Store.get?, Store.isActive, sameElsewhere_write hwrite i hi] at hv
    exact h i c v hv

end Properties

end Document
end EntityRules
