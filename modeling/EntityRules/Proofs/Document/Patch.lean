import EntityRules.Proofs.Document.Given
import EntityRules.Proofs.Document.RoundTrip

/-!
# Patches of components

A patch is an object whose members are applied one after another.  A transform is patched vector
by vector, a style attribute by attribute, properties key by key; null unsets an attribute and
removes a property.  What a patch does is told by what is shown of the component before and after.

**Results.**
* `find?_members_key`: what a document shows of one component.
* `patchTakes_foldl`: a patch of known parts, part by part.
* `takesEffect_transform`, `takesEffect_flex`, `changes_changeProperty`: one part of a patch.
-/

namespace EntityRules
namespace Document

variable {s t : Store} {e : Nat} {c d : Component}

/-! ## Shapes and their meaning -/

/-- A member of a field that may be absent. -/
def part? (field : Option Json) (name : String) : Option Json := field.bind (·.get? name)

/-- The vectors of a transform, with the names of their members. -/
def vectors : List (String × List String) :=
  [("anchor", vec3Names), ("position", vec3Names), ("rotation", rotationNames),
    ("scale", vec3Names)]

/-- Whether a member of a patch is a vector of a transform. -/
def isVector (name : String) : Bool := Assoc.contains name vectors

/-- The fields that are written in full. -/
def WellShaped : Component → Json → Prop
  | .name, value => ∃ name, value = .str name ∧ name ≠ ""
  | .tags, value => ∃ tags, value = .ofStrings tags
  | .transform, value => ∃ patch, value = .obj patch ∧ Assoc.Distinct patch ∧
      ∀ name names given, Assoc.find? name vectors = some names →
        Assoc.find? name patch = some given → IsRecord names given
  | .properties, value => ∃ patch, value = .obj patch ∧ Assoc.Distinct patch ∧
      ∀ name given, Assoc.find? name patch = some given → given = .null ∨ IsProperty given
  | .parent, value => value = .null ∨ ∃ text p, value = .str text ∧ Selector.read text = .ok p
  | .flex, value => ∃ patch, value = .obj patch ∧ Assoc.Distinct patch ∧
      ∀ (a : FlexAttribute) given, Assoc.find? a.key patch = some given →
        given = .null ∨ (kindOf a).Accepts given
  | .layout, _ => True

/-- Properties are merged key by key, and a value creates them. -/
structure PropertiesMerged (patch : Fields) (before after : Option Json) : Prop where
  present : after.isSome = (before.isSome || patch.any fun entry => !entry.2.isNull)
  kept : ∀ name, Assoc.find? name patch = none → part? after name = part? before name
  removed : ∀ name, Assoc.find? name patch = some .null → part? after name = none
  given : ∀ name value, Assoc.find? name patch = some value → value ≠ .null →
    ∃ shown, part? after name = some shown ∧ ShowsProperty value shown

/-- A transform is merged vector by vector, and a vector creates it with defaults. -/
structure TransformMerged (patch : Fields) (before after : Option Json) : Prop where
  present : after.isSome = (before.isSome || patch.any fun entry => isVector entry.1)
  given : ∀ name names value, Assoc.find? name vectors = some names →
    Assoc.find? name patch = some value →
      ∃ shown, part? after name = some shown ∧ RecordRoundsTo names value shown
  kept : before.isSome = true → ∀ name, (isVector name = true → Assoc.find? name patch = none) →
    part? after name = part? before name
  created : before = none → after.isSome = true → ∀ name,
    (isVector name = true → Assoc.find? name patch = none) →
      part? after name = (ofTransform {}).get? name

/-- Layout attributes are merged one by one, and they are shown if there are any. -/
structure FlexMerged (patch : Fields) (before after : Option Json) : Prop where
  present : after.isSome = true ↔ ∃ a : FlexAttribute, (part? after a.key).isSome = true
  kept : ∀ name, (∀ a : FlexAttribute, a.key = name → Assoc.find? name patch = none) →
    part? after name = part? before name
  removed : ∀ a : FlexAttribute, Assoc.find? a.key patch = some .null → part? after a.key = none
  given : ∀ (a : FlexAttribute) value, Assoc.find? a.key patch = some value → value ≠ .null →
    ∃ shown, part? after a.key = some shown ∧ (kindOf a).Shows value shown

/-- What a document shows of a component after a field was written, given what it showed before. -/
def Shows : Component → (given : Json) → (before after : Option Json) → Prop
  | .name, given, _, after => after = some given
  | .tags, given, _, after =>
    ∃ tags, given = .ofStrings tags ∧ after = some (.ofStrings tags.eraseDups)
  | .transform, given, before, after => ∃ patch, given = .obj patch ∧
      TransformMerged patch before after
  | .properties, given, before, after => ∃ patch, given = .obj patch ∧
      PropertiesMerged patch before after
  | .parent, given, _, after => given = .null ∧ after = none ∨
      ∃ text p, given = .str text ∧ Selector.read text = .ok p ∧ after = some (.str p.text)
  | .flex, given, before, after => ∃ patch, given = .obj patch ∧ FlexMerged patch before after
  | .layout, _, before, after => after = before

/-! ## Members of documents -/

section Members

variable {ι : Type}

/-- A look-up among members that may be absent. -/
theorem find?_present [DecidableEq ι] {key : ι → String} (hkey : ∀ a b, key a = key b → a = b)
    (value? : ι → Option Json) (a : ι) (as : List ι) :
    Assoc.find? (key a) (present (as.map fun b => (key b, value? b))) =
      if a ∈ as then value? a else none := by
  induction as with
  | nil => rfl
  | cons b as ih =>
      by_cases hab : b = a
      · subst hab
        cases hvalue : value? b with
        | none =>
            have hskip : present ((b :: as).map fun b => (key b, value? b)) =
                present (as.map fun b => (key b, value? b)) := by
              rw [List.map_cons, hvalue]
              rfl
            rw [hskip, ih, hvalue, ite_self, ite_self]
        | some v =>
            have hhead : present ((b :: as).map fun b => (key b, value? b)) =
                (key b, v) :: present (as.map fun b => (key b, value? b)) := by
              rw [List.map_cons, hvalue]
              rfl
            rw [hhead, Assoc.find?, if_pos rfl, if_pos List.mem_cons_self]
      · have hne : key b ≠ key a := by
          intro heq
          exact hab (hkey b a heq)
        have hmem : a ∈ b :: as ↔ a ∈ as := by
          simp [Ne.symm hab]
        simp only [hmem]
        cases hvalue : value? b with
        | none =>
            rw [List.map_cons, hvalue]
            exact ih
        | some v =>
            rw [List.map_cons, hvalue]
            exact (if_neg hne).trans ih

theorem find?_present_of_ne {key : ι → String} {name : String} (hname : ∀ a, key a ≠ name)
    (value? : ι → Option Json) (as : List ι) :
    Assoc.find? name (present (as.map fun b => (key b, value? b))) = none := by
  refine Assoc.find?_eq_none_iff.mpr ?_
  intro entry hmem
  obtain ⟨⟨_, value⟩, hentry, hvalue⟩ := List.mem_filterMap.mp hmem
  obtain ⟨b, -, heq⟩ := List.mem_map.mp hentry
  obtain ⟨v, -, rfl⟩ := Option.map_eq_some_iff.mp hvalue
  rw [← (Prod.mk.inj heq).1]
  exact hname b

theorem mem_inKeyOrder (c : Component) : c ∈ inKeyOrder := by
  cases c <;> decide

theorem key_injective (c d : Component) (h : key c = key d) : c = d := by
  have hfind (c : Component) : inKeyOrder.find? (fun d => key d = key c) = some c := by
    cases c <;> rfl
  have hc := hfind c
  rw [h, hfind d] at hc
  exact (Option.some.inj hc).symm

theorem members_eq (hactive : s.isActive e = true) :
    members s e = ("_index", .ofNat e) ::
      present (inKeyOrder.map fun c => (key c, (s.get? c e).bind (shown c))) := by
  rw [members, if_pos hactive, ofComponents_eq, fieldsOf]
  simp only [Store.get?, hactive, if_true]

/-- What the document of an active entity shows of a component. -/
theorem find?_members_key (hactive : s.isActive e = true) (c : Component) :
    Assoc.find? (key c) (members s e) = (s.get? c e).bind (shown c) := by
  have hindex : "_index" ≠ key c := by cases c <;> decide
  rw [members_eq hactive, Assoc.find?, if_neg hindex, find?_present key_injective,
    if_pos (mem_inKeyOrder c)]

/-- The document of an active entity under a name depends on the component of this name only. -/
theorem find?_members_congr (hs : s.isActive e = true) (ht : t.isActive e = true) {name : String}
    (h : ∀ c, key c = name → t.get? c e = s.get? c e) :
    Assoc.find? name (members t e) = Assoc.find? name (members s e) := by
  by_cases hname : ∃ c, key c = name
  · obtain ⟨c, rfl⟩ := hname
    rw [find?_members_key ht, find?_members_key hs, h c rfl]
  · have hother : ∀ c, key c ≠ name := by
      intro c heq
      exact hname ⟨c, heq⟩
    rw [members_eq hs, members_eq ht, Assoc.find?, Assoc.find?, find?_present_of_ne hother,
      find?_present_of_ne hother]

theorem attribute_key_injective (a b : FlexAttribute) (h : a.key = b.key) : a = b := by
  have hread := ofKey?_key a
  rw [h, ofKey?_key] at hread
  exact (Option.some.inj hread).symm

theorem get?_ofFlex_key (style : FlexStyle) (a : FlexAttribute) :
    (ofFlex style).get? a.key = (style.get a).map (ofAttribute a) := by
  rw [ofFlex, Json.get?, find?_present attribute_key_injective, if_pos a.mem_all]

theorem get?_ofFlex_of_ne {style : FlexStyle} {name : String}
    (h : ∀ a : FlexAttribute, a.key ≠ name) : (ofFlex style).get? name = none := by
  rw [ofFlex, Json.get?, find?_present_of_ne h]

theorem isEmpty_iff {style : FlexStyle} : style.isEmpty = true ↔ ∀ a, style.get a = none := by
  rw [FlexStyle.isEmpty, List.all_eq_true]
  constructor
  · intro h a
    exact Option.isNone_iff_eq_none.mp (h a a.mem_all)
  · intro h a _
    rw [h a]
    rfl

/-- Whether a style is shown or not, its members are those of the style. -/
theorem part?_shown_flex (style : FlexStyle) (name : String) :
    part? (shown .flex style) name = (ofFlex style).get? name := by
  rw [shown]
  split
  · next hempty =>
      by_cases hname : ∃ a : FlexAttribute, a.key = name
      · obtain ⟨a, rfl⟩ := hname
        rw [get?_ofFlex_key, isEmpty_iff.mp hempty a]
        rfl
      · refine (get?_ofFlex_of_ne ?_).symm
        intro a heq
        exact hname ⟨a, heq⟩
  · rfl

theorem shown_flex_isSome_iff (style : FlexStyle) :
    (shown .flex style).isSome = true ↔
      ∃ a : FlexAttribute, (part? (shown .flex style) a.key).isSome = true := by
  constructor
  · intro h
    by_contra hnone
    have hempty : style.isEmpty = true := by
      refine isEmpty_iff.mpr ?_
      intro a
      by_contra hset
      refine hnone ⟨a, ?_⟩
      rw [part?_shown_flex, get?_ofFlex_key, Option.isSome_map]
      exact Option.isSome_iff_ne_none.mpr hset
    rw [shown, if_pos hempty] at h
    cases h
  · rintro ⟨a, ha⟩
    rw [Option.isSome_iff_ne_none]
    intro hnone
    rw [hnone] at ha
    cases ha

end Members

/-! ## Patches part by part -/

section Patched

variable {α : Type}

/-- One part of a patch, where `parts` says what a member of the patch makes of the value. -/
def Patched.take (label : String) (parts : α → String → Json → Option (Except String α))
    (p : Patched α) (entry : String × Json) : Patched α :=
  match parts p.value entry.1 entry.2 with
  | some result => p.step (label ++ entry.1) result
  | none => p

variable {known : String → Bool} {view : String → α → Option Json}
variable {Takes : String → Json → Option Json → Prop}
variable {parts : α → String → Json → Option (Except String α)}

/-- A member of a patch is ignored, or it is shown under its name and leaves the rest. -/
inductive TakesEffect (known : String → Bool) (view : String → α → Option Json)
    (Takes : String → Json → Option Json → Prop)
    (parts : α → String → Json → Option (Except String α)) (a : α) (entry : String × Json) : Prop
  | ignored (hknown : known entry.1 = false) (hnone : parts a entry.1 entry.2 = none)
  | applied {b : α} (hknown : known entry.1 = true) (hsome : parts a entry.1 entry.2 = some (.ok b))
      (hown : Takes entry.1 entry.2 (view entry.1 b))
      (hothers : ∀ name, name ≠ entry.1 → view name b = view name a)

/-- A patch without failures: every known member is shown under its name. -/
structure PatchTakes (known : String → Bool) (view : String → α → Option Json)
    (Takes : String → Json → Option Json → Prop) (patch : Fields) (a : α) (p : Patched α) :
    Prop where
  failures : p.failures = []
  applied : p.applied = patch.any fun entry => known entry.1
  kept : ∀ name, (known name = true → Assoc.find? name patch = none) →
    view name p.value = view name a
  given : ∀ name value, known name = true → Assoc.find? name patch = some value →
    Takes name value (view name p.value)

theorem applied_foldl_take (label : String) {patch : Fields}
    (hparts : ∀ a, ∀ entry ∈ patch, TakesEffect known view Takes parts a entry) (p : Patched α) :
    (patch.foldl (Patched.take label parts) p).failures = p.failures ∧
      (patch.foldl (Patched.take label parts) p).applied =
        (p.applied || patch.any fun entry => known entry.1) := by
  induction patch generalizing p with
  | nil => simp
  | cons entry patch ih =>
      obtain ⟨hentry, hpatch⟩ := List.forall_mem_cons.mp
        (fun entry hmem => fun a => hparts a entry hmem)
      have hrest := ih (fun a entry hmem => hpatch entry hmem a) (p.take label parts entry)
      rw [List.foldl_cons, hrest.1, hrest.2, List.any_cons]
      cases hentry p.value with
      | ignored hknown hnone => simp [Patched.take, hnone, hknown]
      | applied hknown hsome _ _ => simp [Patched.take, hsome, hknown, Patched.step]

theorem patchTakes_foldl (label : String) {patch : Fields} (hdistinct : Assoc.Distinct patch)
    (hparts : ∀ a, ∀ entry ∈ patch, TakesEffect known view Takes parts a entry) (a : α) :
    PatchTakes known view Takes patch a
      (patch.foldl (Patched.take label parts) { value := a }) := by
  obtain ⟨hfailures, happlied⟩ := applied_foldl_take label hparts { value := a }
  have hstep : ∀ p : Patched α, True → ∀ entry ∈ patch,
      Assoc.Changes (fun _ => True) (fun name p => view name p.value)
        (fun name value before after =>
          if known name = true then Takes name value after else after = before)
        entry p (p.take label parts entry) := by
    intro p _ entry hmem
    cases hparts p.value entry hmem with
    | ignored hknown hnone =>
        have heq : p.take label parts entry = p := by simp [Patched.take, hnone]
        rw [heq]
        exact ⟨trivial, by simp [hknown], fun _ _ => rfl⟩
    | @applied b hknown hsome hown hothers =>
        have heq : (p.take label parts entry).value = b := by
          simp [Patched.take, hsome, Patched.step]
        refine ⟨trivial, ?_, ?_⟩
        · simpa [hknown, heq] using hown
        · intro name hname
          simpa only [heq] using hothers name hname
  obtain ⟨-, hkept, hgiven⟩ := Assoc.foldl_changes hdistinct hstep (s := { value := a }) trivial
  refine ⟨hfailures, by simpa using happlied, ?_, ?_⟩
  · intro name hname
    -- a name that is given but not known belongs to an ignored member
    cases hfind : Assoc.find? name patch with
    | none => exact hkept name hfind
    | some value =>
        have hunknown : ¬known name = true := by
          intro hknown
          rw [hname hknown] at hfind
          cases hfind
        have hsame := hgiven name value hfind
        rwa [if_neg hunknown] at hsame
  · intro name value hknown hfind
    have htakes := hgiven name value hfind
    rwa [if_pos hknown] at htakes

end Patched

/-! ## Patches of one component -/

section Components

theorem patchTransform_eq (transform : Transform) (patch : Fields) :
    patchTransform transform patch =
      patch.foldl (Patched.take "transform." patchVector) { value := transform } := by
  rw [patchTransform]
  congr 1
  funext p entry
  cases hpart : patchVector p.value entry.1 entry.2 with
  | none => simp [Patched.take, hpart]
  | some result => simp [Patched.take, hpart]

/-- What is shown of a transform under a name. -/
def viewVector (name : String) (transform : Transform) : Option Json :=
  (ofTransform transform).get? name

/-- What is shown of a given vector. -/
def TakesVector (name : String) (value : Json) (after : Option Json) : Prop :=
  ∀ names, Assoc.find? name vectors = some names →
    ∃ shown, after = some shown ∧ RecordRoundsTo names value shown

theorem isVector_of_find? {name : String} {names : List String}
    (h : Assoc.find? name vectors = some names) : isVector name = true := by
  rw [isVector, Assoc.contains, h]
  rfl

/-- A given vector takes the place of the one that was there. -/
theorem takesEffect_vector {transform updated : Transform} {entry : String × Json}
    {names : List String} {shown : Json} (hvector : Assoc.find? entry.1 vectors = some names)
    (hpart : patchVector transform entry.1 entry.2 = some (.ok updated))
    (hown : viewVector entry.1 updated = some shown)
    (hrounds : RecordRoundsTo names entry.2 shown)
    (hothers : ∀ name, name ≠ entry.1 → viewVector name updated = viewVector name transform) :
    TakesEffect isVector viewVector TakesVector patchVector transform entry := by
  refine .applied (isVector_of_find? hvector) hpart ?_ hothers
  intro names' hnames
  obtain rfl := Option.some.inj (hvector.symm.trans hnames)
  exact ⟨shown, hown, hrounds⟩

/-- What a member of a patch makes of a transform, one case per vector. -/
theorem takesEffect_transform (transform : Transform) {entry : String × Json}
    (h : ∀ names, Assoc.find? entry.1 vectors = some names → IsRecord names entry.2) :
    TakesEffect isVector viewVector TakesVector patchVector transform entry := by
  obtain ⟨name, value⟩ := entry
  by_cases hposition : name = "position"
  · subst hposition
    obtain ⟨v, hread, hrounds⟩ := toVec3_given (h vec3Names rfl)
    have hpart : patchVector transform "position" value =
        some (.ok { transform with position := v }) := by
      simp [patchVector, hread, Except.map]
    refine takesEffect_vector rfl hpart rfl hrounds ?_
    intro other hother
    simp [viewVector, ofTransform, Json.get?, Assoc.find?, Ne.symm hother]
  by_cases hscale : name = "scale"
  · subst hscale
    obtain ⟨v, hread, hrounds⟩ := toVec3_given (h vec3Names rfl)
    have hpart : patchVector transform "scale" value =
        some (.ok { transform with scale := v }) := by
      simp [patchVector, hread, Except.map]
    refine takesEffect_vector rfl hpart rfl hrounds ?_
    intro other hother
    simp [viewVector, ofTransform, Json.get?, Assoc.find?, Ne.symm hother]
  by_cases hanchor : name = "anchor"
  · subst hanchor
    obtain ⟨v, hread, hrounds⟩ := toVec3_given (h vec3Names rfl)
    have hpart : patchVector transform "anchor" value =
        some (.ok { transform with anchor := v }) := by
      simp [patchVector, hread, Except.map]
    refine takesEffect_vector rfl hpart rfl hrounds ?_
    intro other hother
    simp [viewVector, ofTransform, Json.get?, Assoc.find?, Ne.symm hother]
  by_cases hrotation : name = "rotation"
  · subst hrotation
    obtain ⟨q, hread, hrounds⟩ := toRotation_given (h rotationNames rfl)
    have hpart : patchVector transform "rotation" value =
        some (.ok { transform with rotation := q }) := by
      simp [patchVector, hread, Except.map]
    refine takesEffect_vector rfl hpart rfl hrounds ?_
    intro other hother
    simp [viewVector, ofTransform, Json.get?, Assoc.find?, Ne.symm hother]
  · refine .ignored ?_ ?_
    · simp [isVector, Assoc.contains, vectors, Assoc.find?, Ne.symm hposition, Ne.symm hscale,
        Ne.symm hanchor, Ne.symm hrotation]
    · simp [patchVector, hposition, hscale, hanchor, hrotation]

/-- The attribute under a key, after a patch of one member. -/
def patchAttribute (style : FlexStyle) (name : String) (value : Json) :
    Option (Except String FlexStyle) :=
  (FlexAttribute.ofKey? name).map fun a => (toAttribute value a).map (style.set a)

theorem patchFlex_eq_take (style : FlexStyle) (patch : Fields) :
    patchFlex style patch =
      patch.foldl (Patched.take "flex." patchAttribute) { value := style } := by
  rw [patchFlex]
  congr 1
  funext p entry
  cases hkey : FlexAttribute.ofKey? entry.1 with
  | none => simp [Patched.take, patchAttribute, hkey]
  | some a => simp [Patched.take, patchAttribute, hkey]

/-- Whether a member of a patch is a layout attribute. -/
def isAttribute (name : String) : Bool := (FlexAttribute.ofKey? name).isSome

theorem isAttribute_iff {name : String} :
    isAttribute name = true ↔ ∃ a : FlexAttribute, a.key = name := by
  rw [isAttribute, Option.isSome_iff_exists]
  constructor
  · rintro ⟨a, ha⟩
    exact ⟨a, of_decide_eq_true (List.find?_eq_some_iff_append.mp ha).1⟩
  · rintro ⟨a, rfl⟩
    exact ⟨a, ofKey?_key a⟩

/-- What is shown of a given value under a relation: nothing for null. -/
structure ShowsGiven (Relation : Json → Json → Prop) (given : Json) (after : Option Json) :
    Prop where
  null : given = .null → after = none
  value : given ≠ .null → ∃ shown, after = some shown ∧ Relation given shown

theorem showsGiven_null (Relation : Json → Json → Prop) : ShowsGiven Relation .null none where
  null _ := rfl
  value h := absurd rfl h

theorem showsGiven_value {Relation : Json → Json → Prop} {given shown : Json}
    (hgiven : given ≠ .null) (h : Relation given shown) :
    ShowsGiven Relation given (some shown) where
  null hnull := absurd hnull hgiven
  value _ := ⟨shown, rfl, h⟩

/-- What is shown of a style under a name. -/
def viewAttribute (name : String) (style : FlexStyle) : Option Json := (ofFlex style).get? name

/-- What is shown of a given attribute. -/
def TakesAttribute (name : String) (value : Json) (after : Option Json) : Prop :=
  ∀ a : FlexAttribute, a.key = name → ShowsGiven (kindOf a).Shows value after

theorem viewAttribute_set_of_ne (style : FlexStyle) {a : FlexAttribute} (value? : Option a.Value)
    {name : String} (h : name ≠ a.key) :
    viewAttribute name (style.set a value?) = viewAttribute name style := by
  by_cases hattribute : ∃ b : FlexAttribute, b.key = name
  · obtain ⟨b, rfl⟩ := hattribute
    have hne : a ≠ b := by
      rintro rfl
      exact h rfl
    rw [viewAttribute, viewAttribute, get?_ofFlex_key, get?_ofFlex_key,
      FlexStyle.get_set_of_ne style hne]
  · have hnone : ∀ b : FlexAttribute, b.key ≠ name := by
      intro b heq
      exact hattribute ⟨b, heq⟩
    rw [viewAttribute, viewAttribute, get?_ofFlex_of_ne hnone, get?_ofFlex_of_ne hnone]

/-- What a member of a patch makes of a style. -/
theorem takesEffect_flex (style : FlexStyle) {entry : String × Json}
    (h : ∀ a : FlexAttribute, a.key = entry.1 →
      entry.2 = .null ∨ (kindOf a).Accepts entry.2) :
    TakesEffect isAttribute viewAttribute TakesAttribute patchAttribute style entry := by
  obtain ⟨name, value⟩ := entry
  by_cases hname : ∃ a : FlexAttribute, a.key = name
  · obtain ⟨a, rfl⟩ := hname
    obtain ⟨v?, hread, hshows⟩ : ∃ v?, toAttribute value a = .ok v? ∧
        ShowsGiven (kindOf a).Shows value (v?.map (ofAttribute a)) := by
      rcases h a rfl with rfl | haccepts
      · exact ⟨none, toAttribute_null a, showsGiven_null _⟩
      · obtain ⟨v, hread, hshows⟩ := toAttribute_given a haccepts
        exact ⟨some v, hread, showsGiven_value haccepts.ne_null hshows⟩
    have hpart : patchAttribute style a.key value = some (.ok (style.set a v?)) := by
      simp [patchAttribute, ofKey?_key, hread, Except.map]
    refine .applied (isAttribute_iff.mpr ⟨a, rfl⟩) hpart ?_ ?_
    · intro b hb
      obtain rfl := attribute_key_injective b a hb
      rw [viewAttribute, get?_ofFlex_key, FlexStyle.get_set_self]
      exact hshows
    · intro other hother
      exact viewAttribute_set_of_ne style v? hother
  · have hunknown : isAttribute name = false := by
      rw [← Bool.not_eq_true, isAttribute_iff]
      exact hname
    refine .ignored hunknown ?_
    have hkey : FlexAttribute.ofKey? name = none := by
      rw [isAttribute] at hunknown
      exact Option.isSome_eq_false_iff.mp hunknown |> Option.isNone_iff_eq_none.mp
    simp [patchAttribute, hkey]

/-- Properties after one member of a patch. -/
def changeProperty (properties : Properties) (entry : String × Json) : Properties :=
  match propertyChange entry.2 with
  | .ok (some value) => Assoc.insert entry.1 value properties
  | .ok none => Assoc.erase entry.1 properties
  | .error _ => properties

theorem changeProperties_propertyChanges (properties : Properties) (patch : Fields) :
    changeProperties properties (propertyChanges patch) =
      patch.foldl changeProperty properties := by
  induction patch generalizing properties with
  | nil => rfl
  | cons entry patch ih =>
      rw [List.foldl_cons, ← ih]
      cases hchange : propertyChange entry.2 with
      | error message => simp [propertyChanges, changeProperty, hchange]
      | ok change =>
          cases change with
          | none => simp [propertyChanges, changeProperties, changeProperty, hchange]
          | some value => simp [propertyChanges, changeProperties, changeProperty, hchange]

/-- What a document shows of properties under a key. -/
def viewProperty (name : String) (properties : Properties) : Option Json :=
  (Assoc.find? name properties).map ofProperty

theorem get?_ofProperties (properties : Properties) (name : String) :
    (ofProperties properties).get? name = viewProperty name properties :=
  Assoc.find?_map ofProperty name properties

theorem IsProperty.ne_null {value : Json} (h : IsProperty value) : value ≠ .null := by
  rintro rfl
  nomatch h

theorem IsProperty.isNull_eq_false {value : Json} (h : IsProperty value) :
    value.isNull = false := by
  cases h <;> rfl

theorem changes_changeProperty (properties : Properties) {entry : String × Json}
    (h : entry.2 = .null ∨ IsProperty entry.2) :
    Assoc.Changes (fun _ => True) viewProperty
      (fun _ value _ after => ShowsGiven ShowsProperty value after)
      entry properties (changeProperty properties entry) := by
  obtain ⟨name, value⟩ := entry
  rcases h with rfl | hproperty
  · have hchange : changeProperty properties (name, .null) = Assoc.erase name properties := rfl
    rw [hchange]
    refine ⟨trivial, ?_, ?_⟩
    · simp only [viewProperty, Assoc.find?_erase_self]
      exact showsGiven_null _
    · intro other hother
      simp only [viewProperty, Assoc.find?_erase_of_ne hother]
  · obtain ⟨p, hread, hshows⟩ := propertyChange_given hproperty
    have hchange : changeProperty properties (name, value) = Assoc.insert name p properties := by
      simp [changeProperty, hread]
    rw [hchange]
    refine ⟨trivial, ?_, ?_⟩
    · simp only [viewProperty, Assoc.find?_insert_self]
      exact showsGiven_value hproperty.ne_null hshows
    · intro other hother
      simp only [viewProperty, Assoc.find?_insert_of_ne hother]

/-- A null or a property says what it changes. -/
theorem propertyChange_shaped {value : Json} (h : value = .null ∨ IsProperty value) :
    ∃ change, propertyChange value = .ok change ∧ change.isSome = !value.isNull := by
  rcases h with rfl | hproperty
  · exact ⟨none, rfl, rfl⟩
  · obtain ⟨p, hread, -⟩ := propertyChange_given hproperty
    refine ⟨some p, hread, ?_⟩
    rw [hproperty.isNull_eq_false]
    rfl

theorem propertyFailures_shaped {patch : Fields}
    (h : ∀ entry ∈ patch, entry.2 = .null ∨ IsProperty entry.2) : propertyFailures patch = [] := by
  refine List.filterMap_eq_nil_iff.mpr ?_
  intro entry hmem
  obtain ⟨change, hread, -⟩ := propertyChange_shaped (h entry hmem)
  simp only [hread]

theorem any_propertyChanges {patch : Fields}
    (h : ∀ entry ∈ patch, entry.2 = .null ∨ IsProperty entry.2) :
    ((propertyChanges patch).any fun change => change.2.isSome) =
      patch.any fun entry => !entry.2.isNull := by
  induction patch with
  | nil => rfl
  | cons entry patch ih =>
      obtain ⟨hentry, hpatch⟩ := List.forall_mem_cons.mp h
      obtain ⟨change, hread, hsome⟩ := propertyChange_shaped hentry
      have hcons : propertyChanges (entry :: patch) =
          (entry.1, change) :: propertyChanges patch := by
        simp [propertyChanges, hread]
      rw [hcons, List.any_cons, List.any_cons, ih hpatch, hsome]

end Components

end Document
end EntityRules
