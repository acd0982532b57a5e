import EntityRules.Proofs.Document.Attributes

/-!
# Numbers that are stored

The numbers of a document are of double precision.  Properties keep them so; the vectors of a
transform and the attributes of a layout round them to single precision, where a number that is
too large becomes an infinity.  So a document leaves all numbers of an entity finite if those
that it gives under these two keys are in the range of single precision.

**Results.**
* `isFinite_toVec3`, `isFinite_toRotation`, `isFinite_toAttribute`: what is read is finite.
* `isFinite_becomes`: one component after its field was written.
* `respects_finite`, `respects_finite_elsewhere`: documents in range, and all documents.
-/

namespace EntityRules
namespace Document

open Numeric (narrow)

variable {fields : Fields} {name : String} {value given : Json}

/-! ## Numbers in range -/

/-- Whether a value is in the range of single precision, if it is a number. -/
def fitsSingle (value : Json) : Bool := (single? value).all Float32.isFinite

/-- Whether the numbers of a document that are stored in single precision are in its range. -/
def inRange : Json → Bool
  | .obj fields => fields.all fun (name, value) =>
    (name ≠ "transform" && name ≠ "flex") || value.all fitsSingle
  | _ => true

section Numbers

theorem exists_of_bind {α β : Type} {read : Except String α} {next : α → Except String β} {b : β}
    (h : read >>= next = .ok b) : ∃ a, read = .ok a ∧ next a = .ok b := by
  cases read with
  | error message => cases h
  | ok a => exact ⟨a, rfl, h⟩

theorem isFinite_of_single? (h : value.all fitsSingle = true) {x : Float32}
    (hx : single? value = some x) : x.isFinite = true := by
  cases value with
  | num n =>
      have hfits : (single? (.num n)).all Float32.isFinite = true := h
      rwa [hx] at hfits
  | null | bool | str | arr | obj => cases hx

theorem isFinite_component (h : (Json.obj fields).all fitsSingle = true) {x : Float32}
    (hx : component fields name = .ok x) : x.isFinite = true := by
  cases hfind : Assoc.find? name fields with
  | none =>
      rw [component, hfind] at hx
      cases hx
  | some value =>
      cases hread : single? value with
      | none =>
          simp only [component, hfind, hread] at hx
          cases hx
      | some y =>
          simp only [component, hfind, hread] at hx
          obtain rfl := Except.ok.inj hx
          exact isFinite_of_single? (Json.all_of_find? h hfind) hread

theorem isFinite_toVec3 (h : value.all fitsSingle = true) {v : Vec3} (hv : toVec3 value = .ok v) :
    v.isFinite = true := by
  cases value with
  | null | bool | num | str | arr => cases hv
  | obj fields =>
      obtain ⟨x, hx, hv⟩ := exists_of_bind hv
      obtain ⟨y, hy, hv⟩ := exists_of_bind hv
      obtain ⟨z, hz, hv⟩ := exists_of_bind hv
      obtain rfl := Except.ok.inj hv
      simp only [Vec3.isFinite, isFinite_component h hx, isFinite_component h hy,
        isFinite_component h hz, Bool.and_self]

theorem isFinite_toRotation (h : value.all fitsSingle = true) {q : Rotation}
    (hq : toRotation value = .ok q) : q.isFinite = true := by
  cases value with
  | null | bool | num | str | arr => cases hq
  | obj fields =>
      obtain ⟨x, hx, hq⟩ := exists_of_bind hq
      obtain ⟨y, hy, hq⟩ := exists_of_bind hq
      obtain ⟨z, hz, hq⟩ := exists_of_bind hq
      obtain ⟨w, hw, hq⟩ := exists_of_bind hq
      obtain rfl := Except.ok.inj hq
      simp only [Rotation.isFinite, isFinite_component h hx, isFinite_component h hy,
        isFinite_component h hz, isFinite_component h hw, Bool.and_self]

theorem isFinite_toEdges (h : value.all fitsSingle = true) {l : Edges}
    (hl : toEdges value = .ok (some l)) : l.isFinite = true := by
  cases value with
  | null | bool | num | str | arr => cases hl
  | obj fields =>
      obtain ⟨top, htop, hl⟩ := exists_of_bind hl
      obtain ⟨right, hright, hl⟩ := exists_of_bind hl
      obtain ⟨bottom, hbottom, hl⟩ := exists_of_bind hl
      obtain ⟨left, hleft, hl⟩ := exists_of_bind hl
      obtain rfl := Option.some.inj (Except.ok.inj hl)
      simp only [Edges.isFinite, isFinite_component h htop, isFinite_component h hright,
        isFinite_component h hbottom, isFinite_component h hleft, Bool.and_self]

theorem isFinite_toSingle (h : value.all fitsSingle = true) {x : Float32}
    (hx : toSingle value = .ok (some x)) : x.isFinite = true := by
  cases value with
  | null | bool | str | arr | obj => cases hx
  | num n =>
      obtain rfl := Option.some.inj (Except.ok.inj hx)
      exact isFinite_of_single? h rfl

/-- The value of a layout attribute, one case per kind of values. -/
theorem isFinite_toAttribute (h : value.all fitsSingle = true) (a : FlexAttribute) {v : a.Value}
    (hv : toAttribute value a = .ok (some v)) : a.isFinite v = true := by
  cases a with
  | direction | justifyContent | alignItems | alignSelf | wrap | positionType => rfl
  | border | margin | padding => exact isFinite_toEdges h hv
  | basis | gap | grow | height | maxHeight | maxWidth | minHeight | minWidth | shrink | width =>
      exact isFinite_toSingle h hv

end Numbers

/-! ## Components -/

section Components

/-- What every part of a patch that is taken preserves, the patch preserves. -/
theorem Patched.foldl_preserves {α : Type} {I : α → Prop} (label : String)
    {parts : α → String → Json → Option (Except String α)} {patch : Fields}
    (hparts : ∀ a, I a → ∀ entry ∈ patch, ∀ b, parts a entry.1 entry.2 = some (.ok b) → I b)
    {a : α} (h : I a) : I (patch.foldl (Patched.take label parts) { value := a }).value := by
  refine List.foldlRecOn patch _ (motive := fun p : Patched α => I p.value) h ?_
  intro p hp entry hmem
  cases hpart : parts p.value entry.1 entry.2 with
  | none => simpa [Patched.take, hpart] using hp
  | some result =>
      cases result with
      | error message => simpa [Patched.take, hpart, Patched.step] using hp
      | ok b => simpa [Patched.take, hpart, Patched.step] using hparts p.value hp entry hmem b hpart

theorem isFinite_patchTransform {t : Transform} (h : t.isFinite = true)
    (hpatch : (Json.obj fields).all fitsSingle = true) :
    (patchTransform t fields).value.isFinite = true := by
  rw [Json.all, Json.allFields_eq, List.all_eq_true] at hpatch
  rw [patchTransform_eq]
  refine Patched.foldl_preserves (I := fun t : Transform => t.isFinite = true) _ ?_ h
  intro t ht entry hmem u hu
  have hfits := hpatch entry hmem
  simp only [Transform.isFinite, Bool.and_eq_true] at ht ⊢
  obtain ⟨⟨⟨hposition, hrotation⟩, hscale⟩, hanchor⟩ := ht
  rcases patchVector_cases hu with ⟨-, v, hv, rfl⟩ | ⟨-, v, hv, rfl⟩ | ⟨-, v, hv, rfl⟩ |
    ⟨-, q, hq, rfl⟩
  · exact ⟨⟨⟨isFinite_toVec3 hfits hv, hrotation⟩, hscale⟩, hanchor⟩
  · exact ⟨⟨⟨hposition, hrotation⟩, isFinite_toVec3 hfits hv⟩, hanchor⟩
  · exact ⟨⟨⟨hposition, hrotation⟩, hscale⟩, isFinite_toVec3 hfits hv⟩
  · exact ⟨⟨⟨hposition, isFinite_toRotation hfits hq⟩, hscale⟩, hanchor⟩

theorem isFinite_patchFlex {style : FlexStyle} (h : style.isFinite = true)
    (hpatch : (Json.obj fields).all fitsSingle = true) :
    (patchFlex style fields).value.isFinite = true := by
  rw [Json.all, Json.allFields_eq, List.all_eq_true] at hpatch
  rw [patchFlex_eq_take]
  refine Patched.foldl_preserves (I := fun style : FlexStyle => style.isFinite = true) _ ?_ h
  intro style hstyle entry hmem changed hchanged
  obtain ⟨a, value?, -, hread, rfl⟩ := patchAttribute_cases hchanged
  refine List.all_eq_true.mpr fun b _ => ?_
  by_cases hab : a = b
  · subst hab
    rw [FlexStyle.get_set_self]
    cases value? with
    | none => rfl
    | some v => exact isFinite_toAttribute (hpatch entry hmem) a hread
  · rw [FlexStyle.get_set_of_ne style hab]
    exact List.all_eq_true.mp hstyle b b.mem_all

/-- A property is stored as the number that it is, so it is finite. -/
theorem isFinite_propertyChange {p : Property} (h : propertyChange value = .ok (some p)) :
    p.isFinite = true := by
  cases value with
  | null | arr | obj => cases h
  | bool b => exact Option.some.inj (Except.ok.inj h) ▸ rfl
  | str s => exact Option.some.inj (Except.ok.inj h) ▸ rfl
  | num n =>
      obtain rfl := Option.some.inj (Except.ok.inj h)
      exact isFinite_toFloat n

theorem isFinite_changeProperties {properties : Properties}
    (h : ∀ entry ∈ properties, entry.2.isFinite = true) (patch : Fields) :
    ∀ entry ∈ changeProperties properties (propertyChanges patch), entry.2.isFinite = true := by
  rw [changeProperties_propertyChanges]
  refine List.foldlRecOn patch changeProperty
    (motive := fun properties => ∀ entry ∈ properties, entry.2.isFinite = true) h ?_
  intro properties hproperties change _ entry hentry
  cases hread : propertyChange change.2 with
  | error message =>
      simp only [changeProperty, hread] at hentry
      exact hproperties entry hentry
  | ok p? =>
      cases p? with
      | none =>
          simp only [changeProperty, hread] at hentry
          exact hproperties entry (List.mem_filter.mp hentry).1
      | some p =>
          simp only [changeProperty, hread] at hentry
          rcases Assoc.mem_insert hentry with rfl | hentry
          · exact isFinite_propertyChange hread
          · exact hproperties entry hentry

/-- A component after its field was written, whose numbers are in range where that matters. -/
theorem isFinite_becomes {c : Component} {old : Option c.Value} {v : c.Value}
    (hgiven : c = .transform ∨ c = .flex → given.all fitsSingle = true)
    (hold : ∀ w, old = some w → c.isFinite w = true) (h : becomes given c old = some v) :
    c.isFinite v = true := by
  cases c with
  | name | tags | parent => rfl
  | layout => exact hold v h
  | transform =>
      cases given with
      | null | bool | num | str | arr => exact hold v h
      | obj patch =>
          have hbefore : (old.getD {}).isFinite = true := by
            cases old with
            | none => decide +kernel
            | some t => exact hold t rfl
          simp only [becomes] at h
          split at h
          · obtain rfl := Option.some.inj h
            exact isFinite_patchTransform hbefore (hgiven (Or.inl rfl))
          · exact hold v h
  | flex =>
      cases given with
      | null | bool | num | str | arr => exact hold v h
      | obj patch =>
          have hbefore : (old.getD .empty).isFinite = true := by
            cases old with
            | none => rfl
            | some style => exact hold style rfl
          simp only [becomes] at h
          split at h
          · obtain rfl := Option.some.inj h
            exact isFinite_patchFlex hbefore (hgiven (Or.inr rfl))
          · exact hold v h
  | properties =>
      cases given with
      | null | bool | num | str | arr => exact hold v h
      | obj patch =>
          have hbefore : ∀ entry ∈ old.getD [], entry.2.isFinite = true := by
            cases old with
            | none =>
                intro _ hmem
                cases hmem
            | some p => exact List.all_eq_true.mp (hold p rfl)
          have hafter := isFinite_changeProperties hbefore patch
          refine List.all_eq_true.mpr ?_
          simp only [becomes] at h
          split at h
          · obtain rfl := Option.some.inj h
            exact hafter
          · obtain ⟨p, rfl, rfl⟩ := Option.map_eq_some_iff.mp h
            exact hafter

end Components

/-! ## Documents -/

section Documents

/-- A document in range leaves all numbers finite. -/
theorem respects_finite {document : Json} (h : inRange document = true) :
    Respects (fun c v => c.isFinite v = true) document := by
  rintro fields rfl ⟨name, given⟩ hmem c rfl old v hold hv
  refine isFinite_becomes (fun hc => ?_) hold hv
  have hentry := List.all_eq_true.mp h (key c, given) hmem
  rcases hc with rfl | rfl
  · exact hentry
  · exact hentry

/-- Every document leaves the numbers finite that are not stored in single precision. -/
theorem respects_finite_elsewhere (document : Json) :
    Respects (fun c v => c ≠ .transform → c ≠ .flex → c.isFinite v = true) document := by
  rintro fields rfl ⟨name, given⟩ - c - old v hold hv htransform hflex
  refine isFinite_becomes (fun hc => ?_) (fun w hw => hold w hw htransform hflex) hv
  rcases hc with rfl | rfl
  · exact absurd rfl htransform
  · exact absurd rfl hflex

end Documents

end Document
end EntityRules
