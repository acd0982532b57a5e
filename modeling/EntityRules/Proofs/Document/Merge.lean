import EntityRules.Proofs.Document.Patch

/-!
# What a written document shows

A document is a patch of an entity.  A name, tags and a parent replace what was there; properties
and layout attributes are merged one by one, with null for one that goes; a transform is merged
vector by vector.  All of it is told by two documents, the one that is read from the entity before
and the one that is read after.

**Results.**
* `merges_writeField`: what the field of one component does, one case per component.
* `changes_takeField`: a field changes what is shown under its name only.
* `write_wellShaped`: what a document of well shaped fields does.
-/

namespace EntityRules
namespace Document

open Store (SameElsewhere)

variable {s t : Store} {e : Nat} {c d : Component}

/-! ## Fields -/

section Fields

/-- What the field of a component does: nothing is reported, the component is shown as given, and
the other components stay. -/
structure Merges (c : Component) (e : Nat) (given : Json) (t : Store) (w : FieldOutcome) :
    Prop where
  failures : w.failures = []
  active : w.store.isActive e = true
  others : ∀ d, d ≠ c → w.store.get? d e = t.get? d e
  shows : Shows c given ((t.get? c e).bind (shown c)) ((w.store.get? c e).bind (shown c))

variable {given : Json} {patch : Fields}

theorem merges_store (hactive : t.isActive e = true) {value? : Option c.Value}
    (h : Shows c given ((t.get? c e).bind (shown c)) (value?.bind (shown c))) (written : Bool) :
    Merges c e given t ⟨(t.bumpFor c).put c e value?, [], written⟩ := by
  have hbump : (t.bumpFor c).isActive e = true := (Store.isActive_bumpFor t c e).trans hactive
  refine ⟨rfl, (Store.isActive_put _ c e _ e).trans hbump, ?_, ?_⟩
  · intro d hd
    rw [Store.get?_put_of_ne hd.symm, Store.get?_bumpFor]
  · rw [Store.get?_put_self hbump]
    exact h

theorem merges_put (hactive : t.isActive e = true) {value : c.Value}
    (h : Shows c given ((t.get? c e).bind (shown c)) (shown c value)) :
    Merges c e given t (put t c e value []) := by
  have hput : put t c e value [] = ⟨(t.bumpFor c).put c e (some value), [], true⟩ := by
    simp [put, Store.insert, hactive]
  rw [hput]
  exact merges_store hactive h true

theorem merges_unchanged (hactive : t.isActive e = true)
    (h : Shows c given ((t.get? c e).bind (shown c)) ((t.get? c e).bind (shown c))) :
    Merges c e given t ⟨t, [], true⟩ :=
  ⟨rfl, hactive, fun _ _ => rfl, h⟩

theorem merges_writeId (hactive : t.isActive e = true) (h : WellShaped .name given) :
    Merges .name e given t (writeId t e given) := by
  obtain ⟨name, rfl, hname⟩ := h
  rw [writeId, if_neg hname]
  split
  · next hsame =>
      refine merges_unchanged hactive ?_
      rw [hsame]
      rfl
  · exact merges_put hactive rfl

/-- Tags are read in the order of their first places. -/
theorem toTags_eraseDups (tags : List String) (given : Tags) :
    ∃ read, toTags (tags.map .str) given = .ok read ∧
      read.toList = given.toList ++ (tags.filter fun tag => tag ∉ given.toList).eraseDups := by
  induction tags generalizing given with
  | nil => exact ⟨given, rfl, (List.append_nil _).symm⟩
  | cons tag tags ih =>
      obtain ⟨read, hread, hlist⟩ := ih (given.insert tag)
      refine ⟨read, hread, ?_⟩
      rw [hlist]
      by_cases hmem : tag ∈ given.toList
      · have hinsert : given.insert tag = given := by
          rw [Tags.insert, Tags.add, dif_pos hmem]
        rw [hinsert, List.filter_cons_of_neg (by simpa using hmem)]
      · have hinsert : (given.insert tag).toList = given.toList ++ [tag] := by
          rw [Tags.insert, Tags.add, dif_neg hmem]
        have hrest : (tags.filter fun other => other ∉ given.toList ++ [tag]) =
            (tags.filter fun other => other ∉ given.toList).filter fun other => !other == tag := by
          rw [List.filter_filter]
          refine List.filter_congr ?_
          intro other _
          by_cases hother : other = tag <;> simp [hother]
        rw [hinsert, hrest, List.filter_cons_of_pos (by simpa using hmem), List.eraseDups_cons,
          List.append_assoc, List.singleton_append]

theorem merges_writeTags (hactive : t.isActive e = true) (h : WellShaped .tags given) :
    Merges .tags e given t (writeTags t e given) := by
  obtain ⟨tags, rfl⟩ := h
  obtain ⟨read, hread, hlist⟩ := toTags_eraseDups tags .empty
  have htags : read.toList = tags.eraseDups := by
    simpa [Tags.empty] using hlist
  have hshown : shown .tags read = some (.ofStrings tags.eraseDups) := by
    rw [shown, htags]
  simp only [writeTags, Json.ofStrings, hread]
  split
  · next hsame =>
      refine merges_unchanged hactive ⟨tags, rfl, ?_⟩
      rw [hsame]
      exact hshown
  · exact merges_put hactive ⟨tags, rfl, hshown⟩

theorem merges_writeParent (hactive : t.isActive e = true) (h : WellShaped .parent given) :
    Merges .parent e given t (writeParent t e given) := by
  rcases h with rfl | ⟨text, p, rfl, hread⟩
  · cases hget : t.get? .parent e with
    | none =>
        have hremove : t.remove .parent e = (t, none) := by simp [Store.remove, hget]
        simp only [writeParent, hremove]
        refine merges_unchanged hactive (Or.inl ⟨rfl, ?_⟩)
        rw [hget]
        rfl
    | some p =>
        have hremove : t.remove .parent e = ((t.bumpFor .parent).put .parent e none, some p) := by
          simp [Store.remove, hget, Store.bumpFor_put]
        have hshows : Shows .parent .null ((t.get? .parent e).bind (shown .parent)) none :=
          Or.inl ⟨rfl, rfl⟩
        simp only [writeParent, hremove]
        exact merges_store hactive hshows true
  · simp only [writeParent, hread]
    exact merges_put hactive (Or.inr ⟨text, p, rfl, hread, rfl⟩)

theorem any_of_find? {known : String → Bool} {name : String} {value : Json}
    (hknown : known name = true) (hfind : Assoc.find? name patch = some value) :
    (patch.any fun entry => known entry.1) = true :=
  List.any_eq_true.mpr ⟨(name, value), Assoc.mem_of_find? hfind, hknown⟩

/-- A transform before and after a patch with a vector. -/
theorem transformMerged_applied {before : Option Transform} {p : Patched Transform}
    (hpatch : PatchTakes isVector viewVector TakesVector patch (before.getD {}) p)
    (happlied : (patch.any fun entry => isVector entry.1) = true) :
    TransformMerged patch (before.bind (shown .transform)) (shown .transform p.value) where
  present := by
    rw [happlied, Bool.or_true]
    rfl
  given name names value hnames hfind :=
    hpatch.given name value (isVector_of_find? hnames) hfind names hnames
  kept hbefore name hname := by
    cases before with
    | none => cases hbefore
    | some transform => exact hpatch.kept name hname
  created hbefore _ name hname := by
    cases before with
    | none => exact hpatch.kept name hname
    | some transform => cases hbefore

/-- A patch without a vector leaves a transform as it was. -/
theorem transformMerged_ignored (hignored : (patch.any fun entry => isVector entry.1) = false)
    (before : Option Json) : TransformMerged patch before before where
  present := by rw [hignored, Bool.or_false]
  given name names value hnames hfind := by
    rw [any_of_find? (isVector_of_find? hnames) hfind] at hignored
    cases hignored
  kept _ _ _ := rfl
  created hbefore hafter := by
    rw [hbefore] at hafter
    cases hafter

theorem merges_writeTransform (hactive : t.isActive e = true) (h : WellShaped .transform given) :
    Merges .transform e given t (writeTransform t e given) := by
  obtain ⟨patch, rfl, hdistinct, hshape⟩ := h
  have hpatch := patchTakes_foldl "transform." hdistinct
    (fun transform entry hmem => takesEffect_transform transform fun names hnames =>
      hshape entry.1 names entry.2 hnames ((Assoc.find?_eq_some_iff hdistinct).mpr hmem))
    ((t.get? .transform e).getD {})
  rw [← patchTransform_eq] at hpatch
  simp only [writeTransform]
  generalize patchTransform ((t.get? .transform e).getD {}) patch = p at hpatch
  rw [hpatch.failures, List.reverse_nil, hpatch.applied]
  split
  · next happlied =>
      exact merges_put hactive ⟨patch, rfl, transformMerged_applied hpatch happlied⟩
  · next hignored =>
      rw [Bool.not_eq_true] at hignored
      exact merges_unchanged hactive ⟨patch, rfl, transformMerged_ignored hignored _⟩

/-- What is shown of a style that may be absent. -/
theorem part?_flex (style? : Option FlexStyle) (name : String) :
    part? (style?.bind (shown .flex)) name = viewAttribute name (style?.getD .empty) := by
  cases style? with
  | none => exact part?_shown_flex .empty name
  | some style => exact part?_shown_flex style name

theorem flex_isSome_iff (style? : Option FlexStyle) :
    (style?.bind (shown .flex)).isSome = true ↔
      ∃ a : FlexAttribute, (part? (style?.bind (shown .flex)) a.key).isSome = true := by
  cases style? with
  | none => exact shown_flex_isSome_iff .empty
  | some style => exact shown_flex_isSome_iff style

theorem isAttribute_key (a : FlexAttribute) : isAttribute a.key = true :=
  isAttribute_iff.mpr ⟨a, rfl⟩

/-- A style before and after a patch of attributes. -/
theorem flexMerged_applied {before : Option FlexStyle} {p : Patched FlexStyle}
    (hpatch : PatchTakes isAttribute viewAttribute TakesAttribute patch (before.getD .empty) p) :
    FlexMerged patch (before.bind (shown .flex)) (shown .flex p.value) where
  present := shown_flex_isSome_iff p.value
  kept name hname := by
    rw [part?_shown_flex, part?_flex]
    refine hpatch.kept name ?_
    intro hknown
    obtain ⟨a, ha⟩ := isAttribute_iff.mp hknown
    exact hname a ha
  removed a hfind := by
    rw [part?_shown_flex]
    exact (hpatch.given a.key .null (isAttribute_key a) hfind a rfl).null rfl
  given a value hfind hvalue := by
    rw [part?_shown_flex]
    exact (hpatch.given a.key value (isAttribute_key a) hfind a rfl).value hvalue

/-- A patch without an attribute leaves a style as it was. -/
theorem flexMerged_ignored (hignored : (patch.any fun entry => isAttribute entry.1) = false)
    (before : Option FlexStyle) :
    FlexMerged patch (before.bind (shown .flex)) (before.bind (shown .flex)) := by
  have hunknown {a : FlexAttribute} {value : Json}
      (hfind : Assoc.find? a.key patch = some value) : False := by
    rw [any_of_find? (isAttribute_key a) hfind] at hignored
    cases hignored
  exact ⟨flex_isSome_iff before, fun _ _ => rfl, fun _ hfind => (hunknown hfind).elim,
    fun _ _ hfind _ => (hunknown hfind).elim⟩

theorem merges_writeFlex (hactive : t.isActive e = true) (h : WellShaped .flex given) :
    Merges .flex e given t (writeFlex t e given) := by
  obtain ⟨patch, rfl, hdistinct, hshape⟩ := h
  have hpatch := patchTakes_foldl "flex." hdistinct
    (fun style entry hmem => takesEffect_flex style fun a ha =>
      hshape a entry.2 (ha ▸ (Assoc.find?_eq_some_iff hdistinct).mpr hmem))
    ((t.get? .flex e).getD .empty)
  rw [← patchFlex_eq_take] at hpatch
  simp only [writeFlex]
  generalize patchFlex ((t.get? .flex e).getD .empty) patch = p at hpatch
  rw [hpatch.failures, List.reverse_nil, hpatch.applied]
  split
  · exact merges_put hactive ⟨patch, rfl, flexMerged_applied hpatch⟩
  · next hignored =>
      rw [Bool.not_eq_true] at hignored
      exact merges_unchanged hactive ⟨patch, rfl, flexMerged_ignored hignored _⟩

/-- What is shown of properties that may be absent. -/
theorem part?_properties (properties? : Option Properties) (name : String) :
    part? (properties?.bind (shown .properties)) name =
      viewProperty name (properties?.getD []) := by
  cases properties? with
  | none => rfl
  | some properties => exact get?_ofProperties properties name

theorem changeProperties_nil {changes : List (String × Option Property)}
    (h : (changes.any fun change => change.2.isSome) = false) :
    changeProperties [] changes = [] := by
  induction changes with
  | nil => rfl
  | cons change changes ih =>
      obtain ⟨name, change⟩ := change
      rw [List.any_cons, Bool.or_eq_false_iff] at h
      obtain ⟨hnone, hrest⟩ := h
      cases change with
      | none => exact ih hrest
      | some value => nomatch hnone

/-- Properties before and after a patch, if they are created just when a value is given. -/
theorem propertiesMerged {before after : Option Properties} (hdistinct : Assoc.Distinct patch)
    (hentries : ∀ entry ∈ patch, entry.2 = .null ∨ IsProperty entry.2)
    (hafter : after.getD [] = changeProperties (before.getD []) (propertyChanges patch))
    (hpresent : after.isSome = (before.isSome || patch.any fun entry => !entry.2.isNull)) :
    PropertiesMerged patch (before.bind (shown .properties))
      (after.bind (shown .properties)) := by
  have hsome (properties? : Option Properties) :
      (properties?.bind (shown .properties)).isSome = properties?.isSome := by
    cases properties? <;> rfl
  have hstep : ∀ properties : Properties, True → ∀ entry ∈ patch,
      Assoc.Changes (fun _ => True) viewProperty
        (fun _ value _ after => ShowsGiven ShowsProperty value after)
        entry properties (changeProperty properties entry) := by
    intro properties _ entry hmem
    exact changes_changeProperty properties (hentries entry hmem)
  obtain ⟨-, hkept, hgiven⟩ := Assoc.foldl_changes hdistinct hstep (s := before.getD []) trivial
  rw [changeProperties_propertyChanges] at hafter
  simp only [← hafter] at hkept hgiven
  refine ⟨?_, ?_, ?_, ?_⟩
  · rw [hsome, hsome, hpresent]
  · intro name hname
    rw [part?_properties, part?_properties]
    exact hkept name hname
  · intro name hfind
    rw [part?_properties]
    exact (hgiven name .null hfind).null rfl
  · intro name value hfind hvalue
    rw [part?_properties]
    exact (hgiven name value hfind).value hvalue

theorem merges_writeProperties (hactive : t.isActive e = true)
    (h : WellShaped .properties given) :
    Merges .properties e given t (writeProperties t e given) := by
  obtain ⟨patch, rfl, hdistinct, hshape⟩ := h
  have hentries : ∀ entry ∈ patch, entry.2 = .null ∨ IsProperty entry.2 := by
    intro entry hmem
    exact hshape entry.1 entry.2 ((Assoc.find?_eq_some_iff hdistinct).mpr hmem)
  have hany := any_propertyChanges hentries
  simp only [writeProperties, propertyFailures_shaped hentries]
  split
  · next hvalue =>
      rw [hvalue] at hany
      obtain ⟨u, hobtain, hactive', hothers⟩ :=
        Store.getOrInsert_of_active hactive (c := .properties) rfl []
      rw [hobtain]
      refine ⟨rfl, (Store.isActive_put u .properties e _ e).trans hactive', ?_, patch, rfl, ?_⟩
      · intro d hd
        rw [Store.get?_put_of_ne hd.symm, hothers d hd]
      · rw [Store.get?_put_self hactive']
        refine propertiesMerged hdistinct hentries rfl ?_
        rw [← hany, Bool.or_true]
        rfl
  · next hremovals =>
      rw [Bool.not_eq_true] at hremovals
      rw [hremovals] at hany
      simp only [Store.modify, Store.access_of_active hactive (c := .properties) rfl]
      cases hget : t.get? .properties e with
      | none =>
          refine ⟨rfl, hactive, fun _ _ => rfl, patch, rfl, ?_⟩
          rw [hget]
          refine propertiesMerged hdistinct hentries (changeProperties_nil hremovals).symm ?_
          rw [← hany]
          rfl
      | some properties =>
          refine ⟨rfl, (Store.isActive_put t .properties e _ e).trans hactive, ?_, patch, rfl, ?_⟩
          · intro d hd
            exact Store.get?_put_of_ne hd.symm t e _ e
          · rw [Store.get?_put_self hactive, hget]
            exact propertiesMerged hdistinct hentries rfl rfl

/-- The field of a component, one case per component. -/
theorem merges_writeField (hactive : t.isActive e = true) (h : WellShaped c given)
    {w : FieldOutcome} (hw : writeField t e (key c) given = some w) : Merges c e given t w := by
  cases c with
  | name =>
      obtain rfl := Option.some.inj hw
      exact merges_writeId hactive h
  | tags =>
      obtain rfl := Option.some.inj hw
      exact merges_writeTags hactive h
  | transform =>
      obtain rfl := Option.some.inj hw
      exact merges_writeTransform hactive h
  | properties =>
      obtain rfl := Option.some.inj hw
      exact merges_writeProperties hactive h
  | parent =>
      obtain rfl := Option.some.inj hw
      exact merges_writeParent hactive h
  | flex =>
      obtain rfl := Option.some.inj hw
      exact merges_writeFlex hactive h
  | layout => nomatch hw

/-- The names of the fields that are written. -/
theorem writeField_eq_none_iff {name : String} :
    writeField t e name given = none ↔ ∀ c, key c = name → c = .layout := by
  constructor
  · rintro h c rfl
    cases c with
    | layout => rfl
    | name | tags | transform | properties | parent | flex => nomatch h
  · intro h
    have hne (c : Component) (hc : c ≠ .layout) : name ≠ key c := by
      intro heq
      exact hc (h c heq.symm)
    have hid : name ≠ "id" := hne .name (by decide)
    have htags : name ≠ "tags" := hne .tags (by decide)
    have htransform : name ≠ "transform" := hne .transform (by decide)
    have hproperties : name ≠ "properties" := hne .properties (by decide)
    have hparent : name ≠ "parent" := hne .parent (by decide)
    have hflex : name ≠ "flex" := hne .flex (by decide)
    simp [writeField, hid, htags, htransform, hproperties, hparent, hflex]

end Fields

/-! ## Documents -/

section Documents

/-- The store after one field of a document. -/
def takeField (e : Nat) (t : Store) (entry : String × Json) : Store :=
  match writeField t e entry.1 entry.2 with
  | some w => w.store
  | none => t

/-- What is shown under a name after a field of this name was given. -/
structure ShowsField (name : String) (given : Json) (before after : Option Json) : Prop where
  shows : ∀ c, key c = name → Shows c given before after
  ignored : (∀ c, key c = name → c = .layout) → after = before

/-- One field of a document changes what is shown under its name only. -/
theorem changes_takeField (hactive : t.isActive e = true) {entry : String × Json}
    (h : ∀ c, key c = entry.1 → WellShaped c entry.2) :
    Assoc.Changes (fun t => t.isActive e = true) (fun name t => Assoc.find? name (members t e))
        ShowsField entry t (takeField e t entry) ∧
      ∀ w, writeField t e entry.1 entry.2 = some w → w.failures = [] := by
  obtain ⟨name, given⟩ := entry
  cases hw : writeField t e name given with
  | none =>
      have hstore : takeField e t (name, given) = t := by simp [takeField, hw]
      rw [hstore]
      refine ⟨⟨hactive, ⟨?_, fun _ => rfl⟩, fun _ _ => rfl⟩, ?_⟩
      · intro c hc
        obtain rfl := writeField_eq_none_iff.mp hw c hc
        exact rfl
      · intro w heq
        nomatch heq
  | some w =>
      have hstore : takeField e t (name, given) = w.store := by simp [takeField, hw]
      -- what is written is written under the key of a component
      obtain ⟨c, rfl, hwritten⟩ : ∃ c, key c = name ∧ c ≠ .layout := by
        by_contra hnone
        have hunknown : writeField t e name given = none := by
          refine writeField_eq_none_iff.mpr ?_
          intro c hc
          by_contra hne
          exact hnone ⟨c, hc, hne⟩
        rw [hunknown] at hw
        nomatch hw
      have hmerges := merges_writeField hactive (h c rfl) hw
      rw [hstore]
      refine ⟨⟨hmerges.active, ⟨?_, ?_⟩, ?_⟩, ?_⟩
      · intro d hd
        obtain rfl := key_injective d c hd
        simp only [find?_members_key hactive, find?_members_key hmerges.active]
        exact hmerges.shows
      · intro hlayout
        exact absurd (hlayout c rfl) hwritten
      · intro other hother
        refine find?_members_congr hactive hmerges.active ?_
        rintro d rfl
        refine hmerges.others d ?_
        rintro rfl
        exact hother rfl
      · intro w' heq
        obtain rfl := Option.some.inj heq
        exact hmerges.failures

/-- Fields that are taken without a failure are taken one after another. -/
theorem writeFields_eq_foldl {Good : Store → Prop} {fields : Fields}
    (hstep : ∀ t, Good t → ∀ entry ∈ fields, Good (takeField e t entry) ∧
      ∀ w, writeField t e entry.1 entry.2 = some w → w.failures = []) (h : Good t) :
    (writeFields t e fields).failures = [] ∧
      (writeFields t e fields).store = fields.foldl (takeField e) t := by
  induction fields generalizing t with
  | nil => exact ⟨rfl, rfl⟩
  | cons entry fields ih =>
      obtain ⟨name, given⟩ := entry
      obtain ⟨hgood, hfailures⟩ := hstep t h (name, given) List.mem_cons_self
      have hrest := ih (fun t ht entry hmem => hstep t ht entry (List.mem_cons_of_mem _ hmem)) hgood
      rw [List.foldl_cons, writeFields]
      cases hw : writeField t e name given with
      | none =>
          have hstore : takeField e t (name, given) = t := by simp [takeField, hw]
          rw [hstore] at hrest ⊢
          exact hrest
      | some w =>
          have hstore : takeField e t (name, given) = w.store := by simp [takeField, hw]
          rw [hstore] at hrest ⊢
          simp only [hfailures w hw, List.nil_append]
          exact hrest

/-- The document after fields were written, against the document before. -/
structure Merged (fields before after : Fields) : Prop where
  shows : ∀ c given, Assoc.find? (key c) fields = some given →
    Shows c given (Assoc.find? (key c) before) (Assoc.find? (key c) after)
  others : ∀ name, (∀ c, key c = name → c ≠ .layout → Assoc.find? name fields = none) →
    Assoc.find? name after = Assoc.find? name before

/-- **A document of well shaped fields.**  It is written without a failure; the document that is
read afterwards shows every field as it was given, and everything else as it was before. -/
theorem write_wellShaped (hactive : s.isActive e = true) {fields : Fields}
    (hdistinct : Assoc.Distinct fields)
    (hshape : ∀ c given, Assoc.find? (key c) fields = some given → WellShaped c given) :
    ∃ o before after, write (.obj fields) e s = .ok o ∧ o.failures = [] ∧
      read? s e = some (.obj before) ∧ read? o.store e = some (.obj after) ∧
      Merged fields before after ∧ SameElsewhere e s o.store := by
  have hentries : ∀ entry ∈ fields, ∀ c, key c = entry.1 → WellShaped c entry.2 := by
    intro entry hmem c hc
    refine hshape c entry.2 ?_
    rw [hc]
    exact (Assoc.find?_eq_some_iff hdistinct).mpr hmem
  have hwrite : write (.obj fields) e s = .ok (writeFields s e fields) := if_pos hactive
  have hchanges : ∀ t : Store, t.isActive e = true → ∀ entry ∈ fields,
      Assoc.Changes (fun t => t.isActive e = true) (fun name t => Assoc.find? name (members t e))
        ShowsField entry t (takeField e t entry) := by
    intro t ht entry hmem
    exact (changes_takeField ht (hentries entry hmem)).1
  have hsteps : ∀ t : Store, t.isActive e = true → ∀ entry ∈ fields,
      (takeField e t entry).isActive e = true ∧
        ∀ w, writeField t e entry.1 entry.2 = some w → w.failures = [] := by
    intro t ht entry hmem
    exact ⟨(hchanges t ht entry hmem).good, (changes_takeField ht (hentries entry hmem)).2⟩
  obtain ⟨hfailures, hstore⟩ := writeFields_eq_foldl hsteps hactive
  obtain ⟨hactive', hkept, hgiven⟩ := Assoc.foldl_changes hdistinct hchanges hactive
  rw [← hstore] at hactive'
  simp only [← hstore] at hkept hgiven
  refine ⟨_, members s e, members (writeFields s e fields).store e, hwrite, hfailures,
    if_pos hactive, if_pos hactive', ⟨?_, ?_⟩, sameElsewhere_write hwrite⟩
  · intro c given hfind
    exact (hgiven (key c) given hfind).shows c rfl
  · intro name hname
    cases hfind : Assoc.find? name fields with
    | none => exact hkept name hfind
    | some given =>
        refine (hgiven name given hfind).ignored ?_
        intro c hc
        by_contra hne
        rw [hname c hc hne] at hfind
        nomatch hfind

/-- A document for `furnished`: a new name, no parent, one property less and another more, tags
with a repeat, and one vector. -/
def gate : Fields :=
  [("flex", .obj [("direction", .str "COLUMN"), ("grow", .null)]), ("id", .str "gate"),
    ("parent", .null), ("properties", .obj [("locked", .null), ("note", .str "old")]),
    ("tags", .ofStrings ["iron", "gate", "iron"]),
    ("transform", .obj [("position", .obj [("x", .num (.int 1 (by decide))),
      ("y", .num (.int (-2) (by decide))), ("z", .num (.int 3 (by decide)))])])]

theorem isRecord_gate : IsRecord vec3Names (.obj [("x", .num (.int 1 (by decide))),
    ("y", .num (.int (-2) (by decide))), ("z", .num (.int 3 (by decide)))]) := by
  refine ⟨_, rfl, ?_⟩
  simp only [vec3Names, List.forall_mem_cons]
  refine ⟨⟨_, rfl, _, rfl, ?_⟩, ⟨_, rfl, _, rfl, ?_⟩, ⟨_, rfl, _, rfl, ?_⟩, by simp⟩
  · decide +kernel
  · decide +kernel
  · decide +kernel

theorem wellShaped_gate (c : Component) (given : Json)
    (h : Assoc.find? (key c) gate = some given) : WellShaped c given := by
  cases c with
  | name =>
      obtain rfl := Option.some.inj h
      exact ⟨"gate", rfl, by decide⟩
  | tags =>
      obtain rfl := Option.some.inj h
      exact ⟨_, rfl⟩
  | transform =>
      obtain rfl := Option.some.inj h
      refine ⟨_, rfl, by decide, ?_⟩
      intro name names value hnames hfind
      obtain ⟨rfl, rfl⟩ := Prod.mk.inj (List.mem_singleton.mp (Assoc.mem_of_find? hfind))
      obtain rfl := Option.some.inj hnames
      exact isRecord_gate
  | properties =>
      obtain rfl := Option.some.inj h
      refine ⟨_, rfl, by decide, ?_⟩
      intro name value hfind
      rcases List.mem_pair.mp (Assoc.mem_of_find? hfind) with heq | heq
      · exact Or.inl (Prod.mk.inj heq).2
      · rw [(Prod.mk.inj heq).2]
        exact Or.inr (.text "old")
  | parent => exact Or.inl (Option.some.inj h).symm
  | flex =>
      obtain rfl := Option.some.inj h
      refine ⟨_, rfl, by decide, ?_⟩
      intro a value hfind
      rcases List.mem_pair.mp (Assoc.mem_of_find? hfind) with heq | heq
      · obtain ⟨hkey, rfl⟩ := Prod.mk.inj heq
        obtain rfl := attribute_key_injective a .direction hkey
        exact Or.inr ⟨"COLUMN", rfl, "Column", by decide, by decide⟩
      · exact Or.inl (Prod.mk.inj heq).2
  | layout => nomatch h

theorem write_wellShaped_gate :
    furnished.isActive 0 = true ∧ Assoc.Distinct gate ∧
      (∀ c given, Assoc.find? (key c) gate = some given → WellShaped c given) ∧
      ∃ o before after, write (.obj gate) 0 furnished = .ok o ∧ o.failures = [] ∧
        read? furnished 0 = some (.obj before) ∧ read? o.store 0 = some (.obj after) ∧
        Merged gate before after ∧ SameElsewhere 0 furnished o.store :=
  ⟨by decide, by decide, wellShaped_gate, write_wellShaped (by decide) (by decide) wellShaped_gate⟩

end Documents

end Document
end EntityRules
