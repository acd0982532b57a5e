import EntityRules.Proofs.Document.Attributes

/-!
# Patches member by member

The writer of a patched component reads it, applies the members of the patch one after another, and
puts it back if any of them applied.  A member says what it changes without looking at the
component, so the patch does what its members do, each as a patch of its own.  Members with
different names can be taken in any order, and a member that is taken again changes nothing.

**Results.**
* `becomes_obj`: a patch is the patches of its members.
* `amended_comm`, `amended_amended`: members with different names, one member twice.
* `becomes_becomes`: a field that is given again.
-/

namespace EntityRules
namespace Document

/-! ## Patches -/

section Patches

variable {c : Component} {patch : Fields} {old : Option c.Value}

theorem becomes_transform (patch : Fields) (old : Option Transform) :
    becomes (.obj patch) .transform old = patch.foldl (amended .transform) old := by
  have hvalue := foldl_take_value "transform." patchVector_eq patch
    { value := old.getD {} } old fun _ => rfl
  rw [← patchTransform_eq] at hvalue
  exact hvalue

theorem becomes_flex (patch : Fields) (old : Option FlexStyle) :
    becomes (.obj patch) .flex old = patch.foldl (amended .flex) old := by
  have hvalue := foldl_take_value "flex." patchAttribute_eq patch
    { value := old.getD .empty } old fun _ => rfl
  rw [← patchFlex_eq_take] at hvalue
  exact hvalue

theorem getD_map_erase (name : String) (old : Option Properties) :
    (old.map (Assoc.erase name)).getD [] = Assoc.erase name (old.getD []) := by
  cases old <;> rfl

theorem becomes_properties (patch : Fields) (old : Option Properties) :
    becomes (.obj patch) .properties old = patch.foldl (amended .properties) old := by
  simp only [becomes, changeProperties_propertyChanges]
  induction patch generalizing old with
  | nil => cases old <;> rfl
  | cons member patch ih =>
      simp only [List.foldl_cons, ← ih, amended, memberChange]
      cases hchange : propertyChange member.2 with
      | error message =>
          simp only [propertyChanges, List.filterMap_cons, changeProperty, hchange, Except.map,
            changed]
      | ok change =>
          cases change with
          | none =>
              simp only [propertyChanges, List.filterMap_cons, changeProperty, hchange, Except.map,
                changed, propertyEffect, List.any_cons, Option.isSome_none, Bool.false_or,
                getD_map_erase, Option.map_map, Function.comp_def]
          | some value =>
              simp only [propertyChanges, List.filterMap_cons, changeProperty, hchange, Except.map,
                changed, propertyEffect, started, List.any_cons, Option.isSome_some, Bool.true_or,
                if_true, Option.map_some, Option.getD_some, ite_self]

/-- A patch does what its members do one after another. -/
theorem becomes_obj (patch : Fields) (c : Component) (old : Option c.Value) :
    becomes (.obj patch) c old = patch.foldl (amended c) old := by
  have hignored (hnone : ∀ member old, amended c old member = old) :
      old = patch.foldl (amended c) old := by
    induction patch with
    | nil => rfl
    | cons member patch ih => rw [List.foldl_cons, hnone, ← ih]
  cases c with
  | transform => exact becomes_transform patch old
  | flex => exact becomes_flex patch old
  | properties => exact becomes_properties patch old
  | name | tags | parent | layout => exact hignored fun _ _ => rfl

theorem becomes_singleton (member : String × Json) (c : Component) (old : Option c.Value) :
    becomes (.obj [member]) c old = amended c old member :=
  becomes_obj [member] c old

theorem ordered_becomes (given : Json) (hordered : ∀ v, old = some v → c.Ordered v) :
    ∀ v, becomes given c old = some v → c.Ordered v :=
  fun v hv => respects_ordered (.obj [(key c, given)]) _ rfl (key c, given) List.mem_cons_self c rfl
    old v hordered hv

theorem ordered_amended (member : String × Json) (hordered : ∀ v, old = some v → c.Ordered v) :
    ∀ v, amended c old member = some v → c.Ordered v := by
  rw [← becomes_singleton]
  exact ordered_becomes (.obj [member]) hordered

end Patches

/-! ## Members in another order -/

section Order

variable {α : Type} {f g : α → α} {name other : String} {value given : Json}
variable {c : Component} {old : Option c.Value} {member next : String × Json}

theorem changed_started_comm {change? change'? : Option (Except String (α → α))} (initial : α)
    (h : ∀ f g, change? = some (.ok f) → change'? = some (.ok g) → ∀ a, g (f a) = f (g a))
    (old : Option α) :
    changed (change'?.map (Except.map (started initial)))
        (changed (change?.map (Except.map (started initial))) old) =
      changed (change?.map (Except.map (started initial)))
        (changed (change'?.map (Except.map (started initial))) old) := by
  rcases change? with _ | _ | f
  · rfl
  · rfl
  rcases change'? with _ | _ | g
  · rfl
  · rfl
  exact congrArg some (h f g rfl rfl (old.getD initial))

theorem changed_started_idem {change? : Option (Except String (α → α))} (initial : α)
    (h : ∀ f, change? = some (.ok f) → ∀ a, f (f a) = f a) (old : Option α) :
    changed (change?.map (Except.map (started initial)))
        (changed (change?.map (Except.map (started initial))) old) =
      changed (change?.map (Except.map (started initial))) old := by
  rcases change? with _ | _ | f
  · rfl
  · rfl
  exact congrArg some (h f rfl (old.getD initial))

theorem vectorChange_comm {f g : Transform → Transform} (hne : name ≠ other)
    (hf : vectorChange name value = some (.ok f)) (hg : vectorChange other given = some (.ok g))
    (t : Transform) : g (f t) = f (g t) := by
  rcases vectorChange_cases hf with ⟨rfl, v, -, rfl⟩ | ⟨rfl, v, -, rfl⟩ | ⟨rfl, v, -, rfl⟩ |
      ⟨rfl, v, -, rfl⟩ <;>
    rcases vectorChange_cases hg with ⟨rfl, w, -, rfl⟩ | ⟨rfl, w, -, rfl⟩ | ⟨rfl, w, -, rfl⟩ |
      ⟨rfl, w, -, rfl⟩ <;>
    first | rfl | exact absurd rfl hne

theorem vectorChange_idem {f : Transform → Transform} (h : vectorChange name value = some (.ok f))
    (t : Transform) : f (f t) = f t := by
  rcases vectorChange_cases h with ⟨rfl, v, -, rfl⟩ | ⟨rfl, v, -, rfl⟩ | ⟨rfl, v, -, rfl⟩ |
      ⟨rfl, v, -, rfl⟩ <;>
    rfl

theorem attributeChange_comm {f g : FlexStyle → FlexStyle} (hne : name ≠ other)
    (hf : attributeChange name value = some (.ok f))
    (hg : attributeChange other given = some (.ok g)) (style : FlexStyle) :
    g (f style) = f (g style) := by
  obtain ⟨a, v, rfl, -, rfl⟩ := attributeChange_cases hf
  obtain ⟨b, w, rfl, -, rfl⟩ := attributeChange_cases hg
  have hab : a ≠ b := by
    rintro rfl
    exact hne rfl
  refine FlexStyle.ext_get fun d => ?_
  by_cases hda : d = a
  · subst hda
    rw [FlexStyle.get_set_of_ne _ hab.symm, FlexStyle.get_set_self, FlexStyle.get_set_self]
  by_cases hdb : d = b
  · subst hdb
    rw [FlexStyle.get_set_self, FlexStyle.get_set_of_ne _ hab, FlexStyle.get_set_self]
  · rw [FlexStyle.get_set_of_ne _ (Ne.symm hdb), FlexStyle.get_set_of_ne _ (Ne.symm hda),
      FlexStyle.get_set_of_ne _ (Ne.symm hda), FlexStyle.get_set_of_ne _ (Ne.symm hdb)]

theorem attributeChange_idem {f : FlexStyle → FlexStyle}
    (h : attributeChange name value = some (.ok f)) (style : FlexStyle) :
    f (f style) = f style := by
  obtain ⟨a, v, -, -, rfl⟩ := attributeChange_cases h
  refine FlexStyle.ext_get fun d => ?_
  by_cases hd : d = a
  · subst hd
    rw [FlexStyle.get_set_self, FlexStyle.get_set_self]
  · rw [FlexStyle.get_set_of_ne _ (Ne.symm hd)]

theorem propertyEffect_comm (hne : name ≠ other) (change change' : Option Property)
    {old : Option Properties} (hsorted : Assoc.Sorted (old.getD [])) :
    propertyEffect other change' (propertyEffect name change old) =
      propertyEffect name change (propertyEffect other change' old) := by
  cases change with
  | none =>
      cases change' with
      | none =>
          simp only [propertyEffect, Option.map_map, Function.comp_def, Assoc.erase_comm name other]
      | some value' =>
          simp only [propertyEffect, started, getD_map_erase, Option.map_some]
          rw [Assoc.erase_insert_comm hsorted hne.symm]
  | some value =>
      cases change' with
      | none =>
          simp only [propertyEffect, started, getD_map_erase, Option.map_some]
          rw [Assoc.erase_insert_comm hsorted hne]
      | some value' => exact congrArg some (Assoc.insert_comm hsorted hne value value')

theorem propertyEffect_idem (name : String) (change : Option Property) (old : Option Properties) :
    propertyEffect name change (propertyEffect name change old) =
      propertyEffect name change old := by
  cases change with
  | none => simp only [propertyEffect, Option.map_map, Function.comp_def, Assoc.erase_erase]
  | some value => exact congrArg some (Assoc.insert_insert name value value (old.getD []))

/-- **Members with different names** can be taken in any order. -/
theorem amended_comm (hordered : ∀ v, old = some v → c.Ordered v) (hne : member.1 ≠ next.1) :
    amended c (amended c old member) next = amended c (amended c old next) member := by
  cases c with
  | name | tags | parent | layout => rfl
  | transform =>
      exact changed_started_comm {} (fun f g hf hg => vectorChange_comm hne hf hg) old
  | flex =>
      exact changed_started_comm .empty (fun f g hf hg => attributeChange_comm hne hf hg) old
  | properties =>
      have hsorted : Assoc.Sorted (old.getD []) := by
        cases old with
        | none => exact List.Pairwise.nil
        | some properties => exact hordered properties rfl
      simp only [amended, memberChange]
      cases propertyChange member.2 with
      | error message => rfl
      | ok change =>
          cases propertyChange next.2 with
          | error message => rfl
          | ok change' => exact propertyEffect_comm hne change change' hsorted

/-- A member that is taken again changes nothing. -/
theorem amended_amended (c : Component) (old : Option c.Value) (member : String × Json) :
    amended c (amended c old member) member = amended c old member := by
  cases c with
  | name | tags | parent | layout => rfl
  | transform => exact changed_started_idem {} (fun f hf => vectorChange_idem hf) old
  | flex => exact changed_started_idem .empty (fun f hf => attributeChange_idem hf) old
  | properties =>
      simp only [amended, memberChange]
      cases propertyChange member.2 with
      | error message => rfl
      | ok change => exact propertyEffect_idem member.1 change old

/-- Members of one patch are one member, or they have different names. -/
theorem eq_or_ne_of_distinct {patch : Fields} (hdistinct : Assoc.Distinct patch)
    (hmember : member ∈ patch) (hnext : next ∈ patch) : member = next ∨ member.1 ≠ next.1 := by
  by_cases hname : member.1 = next.1
  · have hfind := (Assoc.find?_eq_some_iff hdistinct).mpr hmember
    rw [hname, (Assoc.find?_eq_some_iff hdistinct).mpr hnext] at hfind
    exact Or.inl (Prod.ext hname (Option.some.inj hfind).symm)
  · exact Or.inr hname

/-- **A field that is given again** changes nothing. -/
theorem becomes_becomes (hdistinct : ∀ patch, given = .obj patch → Assoc.Distinct patch)
    (hordered : ∀ v, old = some v → c.Ordered v) :
    becomes given c (becomes given c old) = becomes given c old := by
  cases given with
  | obj patch =>
      rw [becomes_obj, becomes_obj]
      refine Assoc.foldl_foldl (fun old => ∀ v, old = some v → c.Ordered v)
        (fun old hold member _ => ordered_amended member hold) ?_
        (fun old _ member _ => amended_amended c old member) hordered
      intro old hold member hmember next hnext
      rcases eq_or_ne_of_distinct (hdistinct patch rfl) hmember hnext with rfl | hne
      · rfl
      · exact amended_comm hold hne
  | str text =>
      cases c with
      | name =>
          simp only [becomes]
          split <;> rfl
      | parent =>
          simp only [becomes]
          cases Selector.read text <;> rfl
      | tags | transform | properties | flex | layout => rfl
  | arr items =>
      cases c with
      | tags =>
          simp only [becomes]
          cases toTags items .empty <;> rfl
      | name | transform | properties | parent | flex | layout => rfl
  | null | bool | num => cases c <;> rfl

end Order
end Document
end EntityRules
