import EntityRules.Proofs.Document.Effect
import EntityRules.Proofs.Document.Nulls

/-!
# Attributes given back

A document shows attributes of an entity: components, and the members of those that are patched
member by member.  A field that is written back brings along what it did not mean to change.  A
member that is given back as it was shown is read as an equal value, if there is no null in it,
and is shown in the same way again.

**Results.**
* `restores_patchVector`, `restores_patchAttribute`, `restores_changeProperty`: one member of a
  patch.
* `part?_becomes`: the members of a component after its field was written.
* `view?_write`: the attributes of an entity after a document was written.
-/

namespace EntityRules

/-- Properties in the order of their keys, as every patch leaves them. -/
def Component.Ordered : (c : Component) → c.Value → Prop
  | .properties, p => Assoc.Sorted p
  | _, _ => True

namespace Document

open Json (nullFree)

variable {s : Store} {e : Nat} {name : String} {value given : Json}

/-! ## One member -/

section Members

variable {α : Type}

/-- What a member of a patch does when it is given as it is shown: it is shown so again, and the
others are left. -/
structure Restores (view : String → α → Option Json) (name : String) (value : Json) (a b : α) :
    Prop where
  own : view name a = some value → value.nullFree = true → view name b = some value
  others : ∀ other, other ≠ name → view other b = view other a

theorem restores_refl (view : String → α → Option Json) (name : String) (value : Json) (a : α) :
    Restores view name value a a :=
  ⟨fun h _ => h, fun _ _ => rfl⟩

theorem ofVec3_of_read {u v : Vec3} (hread : toVec3 (ofVec3 u) = .ok v)
    (hnull : (ofVec3 u).nullFree = true) : ofVec3 v = ofVec3 u := by
  rw [nullFree_ofVec3] at hnull
  obtain ⟨w, hagain, hequal⟩ := toVec3_ofVec3 hnull
  obtain rfl := Except.ok.inj (hread.symm.trans hagain)
  exact ofVec3_congr hequal

theorem ofRotation_of_read {q r : Rotation} (hread : toRotation (ofRotation q) = .ok r)
    (hnull : (ofRotation q).nullFree = true) : ofRotation r = ofRotation q := by
  rw [nullFree_ofRotation] at hnull
  obtain ⟨w, hagain, hequal⟩ := toRotation_ofRotation hnull
  obtain rfl := Except.ok.inj (hread.symm.trans hagain)
  exact ofRotation_congr hequal

/-- A vector that is given as it is shown. -/
theorem restores_patchVector {t u : Transform} (h : patchVector t name value = some (.ok u)) :
    Restores viewVector name value t u := by
  refine ⟨fun hshown hnull => ?_, fun other hother => ?_⟩
  · rcases patchVector_cases h with ⟨rfl, v, hread, rfl⟩ | ⟨rfl, v, hread, rfl⟩ |
      ⟨rfl, v, hread, rfl⟩ | ⟨rfl, q, hread, rfl⟩
    case inr.inr.inr =>
      obtain rfl := Option.some.inj hshown
      exact congrArg some (ofRotation_of_read hread hnull)
    -- position, scale and anchor are read alike
    all_goals
      obtain rfl := Option.some.inj hshown
      exact congrArg some (ofVec3_of_read hread hnull)
  · rcases patchVector_cases h with ⟨rfl, v, -, rfl⟩ | ⟨rfl, v, -, rfl⟩ | ⟨rfl, v, -, rfl⟩ |
      ⟨rfl, q, -, rfl⟩ <;>
      simp [viewVector, ofTransform, Json.get?, Assoc.find?, Ne.symm hother]

/-- An attribute of a style that is given as it is shown. -/
theorem restores_patchAttribute {style changed : FlexStyle}
    (h : patchAttribute style name value = some (.ok changed)) :
    Restores viewAttribute name value style changed := by
  obtain ⟨a, value?, rfl, hread, rfl⟩ := patchAttribute_cases h
  refine ⟨fun hshown hnull => ?_, fun other hother => ?_⟩
  · rw [viewAttribute, get?_ofFlex_key] at hshown
    obtain ⟨v, -, rfl⟩ := Option.map_eq_some_iff.mp hshown
    rw [nullFree_ofAttribute] at hnull
    obtain ⟨w, hagain, hequal⟩ := toAttribute_ofAttribute a hnull
    obtain rfl := Except.ok.inj (hread.symm.trans hagain)
    rw [viewAttribute, get?_ofFlex_key, FlexStyle.get_set_self, Option.map_some,
      ofAttribute_congr a hequal]
  · exact viewAttribute_set_of_ne style value? hother

/-- A property that is given as it is shown. -/
theorem restores_changeProperty (properties : Properties) (name : String) (value : Json) :
    Restores viewProperty name value properties (changeProperty properties (name, value)) := by
  cases hread : propertyChange value with
  | error message =>
      have hsame : changeProperty properties (name, value) = properties := by
        simp [changeProperty, hread]
      rw [hsame]
      exact restores_refl viewProperty name value properties
  | ok change =>
      refine ⟨fun hshown hnull => ?_, fun other hother => ?_⟩
      · obtain ⟨p, -, rfl⟩ := Option.map_eq_some_iff.mp hshown
        rw [nullFree_ofProperty] at hnull
        obtain ⟨q, hagain, hequal⟩ := propertyChange_ofProperty hnull
        obtain rfl := Except.ok.inj (hread.symm.trans hagain)
        simp only [changeProperty, hread, viewProperty, Assoc.find?_insert_self, Option.map_some,
          ofProperty_congr hequal]
      · cases change with
        | none => simp only [changeProperty, hread, viewProperty, Assoc.find?_erase_of_ne hother]
        | some p => simp only [changeProperty, hread, viewProperty, Assoc.find?_insert_of_ne hother]

end Members

/-! ## Patches -/

section Patches

variable {α : Type} {sub : Fields}

/-- A member of an object that is given as it is shown is shown so after the whole object. -/
theorem view_foldl {σ : Type} {view : String → σ → Option Json} {step : σ → String × Json → σ}
    (hstep : ∀ a name value, Restores view name value a (step a (name, value)))
    (hdistinct : Assoc.Distinct sub) (hgiven : Assoc.find? name sub = some value)
    (hnull : value.nullFree = true) {a : σ} (hshown : view name a = some value) :
    view name (sub.foldl step a) = some value := by
  have hchanges : ∀ a, True → ∀ entry ∈ sub,
      Assoc.Changes (fun _ => True) view
        (fun _ value before after =>
          before = some value → value.nullFree = true → after = some value)
        entry a (step a entry) := by
    intro a _ entry _
    exact ⟨trivial, (hstep a entry.1 entry.2).own, (hstep a entry.1 entry.2).others⟩
  obtain ⟨-, -, htakes⟩ := Assoc.foldl_changes hdistinct hchanges (s := a) trivial
  exact htakes name value hgiven hshown hnull

/-- A member that is refused leaves the patched value, so only those that are taken matter. -/
theorem restores_take {view : String → α → Option Json} (label : String)
    {parts : α → String → Json → Option (Except String α)}
    (hparts : ∀ {a b name value}, parts a name value = some (.ok b) →
      Restores view name value a b)
    (p : Patched α) (name : String) (value : Json) :
    Restores (fun name p => view name p.value) name value p
      (p.take label parts (name, value)) := by
  cases hpart : parts p.value name value with
  | none =>
      have hsame : p.take label parts (name, value) = p := by simp [Patched.take, hpart]
      rw [hsame]
      exact restores_refl _ name value p
  | some result =>
      cases result with
      | error message =>
          have hsame : (p.take label parts (name, value)).value = p.value := by
            simp [Patched.take, hpart, Patched.step]
          exact ⟨fun h _ => by rw [hsame]; exact h, fun _ _ => by rw [hsame]⟩
      | ok b =>
          have hvalue : (p.take label parts (name, value)).value = b := by
            simp [Patched.take, hpart, Patched.step]
          have hrestores := hparts hpart
          exact ⟨by rw [hvalue]; exact hrestores.own, by rw [hvalue]; exact hrestores.others⟩

/-- **The members of a component after its field was written.**  One that the field gives as it
was shown, without null, is shown as before, whatever else is in the field. -/
theorem part?_becomes {c : Component} {old : Option c.Value} (hdistinct : Assoc.Distinct sub)
    (hgiven : Assoc.find? name sub = some value) (hnull : value.nullFree = true)
    (hshown : part? (old.bind (shown c)) name = some value) :
    part? ((becomes (.obj sub) c old).bind (shown c)) name = some value := by
  cases c with
  | name | tags | parent | layout => exact hshown
  | transform =>
      cases old with
      | none => cases hshown
      | some t =>
          have hview := view_foldl (restores_take "transform." restores_patchVector) hdistinct
            hgiven hnull (a := { value := t }) hshown
          rw [← patchTransform_eq] at hview
          simp only [becomes, Option.getD_some]
          split
          · exact hview
          · exact hshown
  | properties =>
      cases old with
      | none => cases hshown
      | some p =>
          rw [part?_properties] at hshown
          have hview := view_foldl restores_changeProperty hdistinct hgiven hnull hshown
          rw [← changeProperties_propertyChanges] at hview
          rw [part?_properties]
          simp only [becomes]
          split <;> exact hview
  | flex =>
      have hstyle : viewAttribute name (old.getD .empty) = some value :=
        (part?_flex old name).symm.trans hshown
      have hview := view_foldl (restores_take "flex." restores_patchAttribute) hdistinct
        hgiven hnull (a := { value := old.getD .empty }) hstyle
      rw [← patchFlex_eq_take] at hview
      simp only [becomes]
      split
      · exact (part?_flex (some _) name).trans hview
      · exact hshown

end Patches

/-! ## Members in order -/

section Order

/-- Every document leaves properties in order. -/
theorem respects_ordered (document : Json) : Respects Component.Ordered document := by
  rintro fields rfl ⟨name, given⟩ - c - old v hold hv
  cases c with
  | name | tags | transform | parent | flex | layout => trivial
  | properties =>
      have hbefore : Assoc.Sorted (old.getD []) := by
        cases old with
        | none => exact List.Pairwise.nil
        | some p => exact hold p rfl
      cases given with
      | null | bool | num | str | arr => exact hold v hv
      | obj patch =>
          simp only [becomes] at hv
          split at hv
          · obtain rfl := Option.some.inj hv
            exact sorted_changeProperties hbefore _
          · obtain ⟨p, rfl, rfl⟩ := Option.map_eq_some_iff.mp hv
            exact sorted_changeProperties hbefore _

/-- Members that may be absent are in order if all their keys are. -/
theorem sorted_present {entries : List (String × Option Json)}
    (h : (entries.map Prod.fst).Pairwise (· < ·)) : Assoc.Sorted (present entries) := by
  refine List.pairwise_filterMap.mpr ((List.pairwise_map.mp h).imp ?_)
  intro a b hlt entry hentry other hother
  obtain ⟨v, -, rfl⟩ := Option.map_eq_some_iff.mp hentry
  obtain ⟨w, -, rfl⟩ := Option.map_eq_some_iff.mp hother
  exact hlt

/-- What is shown of a component has its members in the order of their keys. -/
theorem sorted_shown {c : Component} {v : c.Value} (h : c.Ordered v) {sub : Fields}
    (hshown : shown c v = some (.obj sub)) : Assoc.Sorted sub := by
  cases c with
  | name | tags | parent => cases hshown
  | transform =>
      have hkeys : ["anchor", "position", "rotation", "scale"].Pairwise (· < ·) := by decide
      obtain rfl := Json.obj.inj (Option.some.inj hshown)
      exact List.pairwise_map.mp hkeys
  | layout =>
      have hkeys : ["height", "width", "x", "y"].Pairwise (· < ·) := by decide
      obtain rfl := Json.obj.inj (Option.some.inj hshown)
      exact List.pairwise_map.mp hkeys
  | properties =>
      obtain rfl := Json.obj.inj (Option.some.inj hshown)
      exact List.pairwise_map.mpr h
  | flex =>
      rw [shown] at hshown
      split at hshown
      · cases hshown
      · obtain rfl := Json.obj.inj (Option.some.inj hshown)
        have hkeys : (FlexAttribute.all.map FlexAttribute.key).Pairwise (· < ·) := by decide
        exact sorted_present (by rwa [List.map_map])

end Order

end Document

/-! ## Attributes -/

/-- The value at the end of a path of keys. -/
def Json.at? (document : Json) (path : List String) : Option Json :=
  path.foldlM Json.get? document

/-- What is reached from a document without null has no null. -/
theorem Json.nullFree_of_at? {path : List String} {document value : Json}
    (h : document.nullFree = true) (hat : document.at? path = some value) :
    value.nullFree = true := by
  induction path generalizing document with
  | nil =>
      obtain rfl := Option.some.inj hat
      exact h
  | cons name path ih =>
      obtain ⟨child, hchild, hrest⟩ := Option.bind_eq_some_iff.mp hat
      exact ih (nullFree_of_get? h hchild) hrest

/-- An attribute of an entity: a component, or a member of one. -/
inductive Attribute where
  | component (c : Component)
  | member (c : Component) (name : String)

namespace Attribute

open Document

variable {s : Store} {e : Nat} {a : Attribute} {value : Json} {fields : Fields}

/-- Where the attribute stands in documents. -/
def path : Attribute → List String
  | component c => [key c]
  | member c name => [key c, name]

/-- What the document of an entity shows of an attribute. -/
def view? (s : Store) (e : Nat) : Attribute → Option Json
  | component c => (s.get? c e).bind (shown c)
  | member c name => part? ((s.get? c e).bind (shown c)) name

/-- Whether a document leaves an attribute out or gives it back as it is shown. -/
def GivenBack (value : Json) (fields : Fields) : Attribute → Prop
  | component c => Assoc.find? (key c) fields = none
  | member c name => ∀ given, Assoc.find? (key c) fields = some given →
      ∃ sub, given = .obj sub ∧ Assoc.Sorted sub ∧ Assoc.find? name sub = some value

theorem at?_members (hactive : s.isActive e = true) (a : Attribute) :
    (Json.obj (members s e)).at? a.path = a.view? s e := by
  cases a with
  | component c =>
      simp only [Json.at?, path, List.foldlM_cons, List.foldlM_nil, Json.get?,
        find?_members_key hactive, view?, bind_pure]
  | member c name =>
      simp only [Json.at?, path, List.foldlM_cons, List.foldlM_nil, Json.get?,
        find?_members_key hactive, view?, bind_pure]
      rfl

/-- An attribute that a written document leaves out or gives back is shown as before. -/
theorem view?_write (hdistinct : Assoc.Distinct fields) {o : Outcome}
    (h : write (.obj fields) e s = .ok o) (hgiven : a.GivenBack value fields)
    (hnull : value.nullFree = true) (hshown : a.view? s e = some value) :
    a.view? o.store e = some value := by
  obtain ⟨-, hcomponents⟩ := get?_write hdistinct h
  cases a with
  | component c =>
      rw [GivenBack] at hgiven
      rw [view?, hcomponents, becomesUnder, hgiven]
      exact hshown
  | member c name =>
      rw [view?, hcomponents, becomesUnder]
      cases hfind : Assoc.find? (key c) fields with
      | none => exact hshown
      | some given =>
          obtain ⟨sub, rfl, hsorted, hsub⟩ := hgiven given hfind
          exact part?_becomes hsorted.distinct hsub hnull hshown

end Attribute
end EntityRules
