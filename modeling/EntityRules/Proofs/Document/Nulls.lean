import EntityRules.Proofs.Document.Patch

/-!
# Documents without null

A number that is not finite is shown as null, and nothing else is.  So the document of an entity
has no null just when every number in its components is finite.  What is shown of two components
that are equal is the same, also where the two have zeros of different signs.

**Results.**
* `nullFree_number`, `nullFree_ofSingle`: one number.
* `nullFree_shown`: one component.
* `nullFree_members`: the document of an entity.
* `number_congr`, `ofSingle_congr`, `ofAttribute_congr`: equal values are shown alike.
-/

namespace EntityRules

/-! ## Leaves of documents -/

namespace Json

mutual

/-- Whether all values of a document but its lists and objects have a property. -/
def all (p : Json → Bool) : Json → Bool
  | .arr items => allItems p items
  | .obj fields => allFields p fields
  | .null => p .null
  | .bool b => p (.bool b)
  | .num n => p (.num n)
  | .str s => p (.str s)

/-- The same for the items of a list. -/
def allItems (p : Json → Bool) : List Json → Bool
  | [] => true
  | x :: xs => all p x && allItems p xs

/-- The same for the members of an object. -/
def allFields (p : Json → Bool) : List (String × Json) → Bool
  | [] => true
  | (_, x) :: fs => all p x && allFields p fs

end

/-- Whether there is no null anywhere in a document. -/
def nullFree (x : Json) : Bool := x.all (!·.isNull)

variable {p : Json → Bool} {fields : Fields} {name : String} {value : Json}

theorem allItems_eq (p : Json → Bool) (items : List Json) :
    allItems p items = items.all (all p) := by
  induction items with
  | nil => rfl
  | cons x xs ih => rw [allItems, ih, List.all_cons]

theorem allFields_eq (p : Json → Bool) (fields : Fields) :
    allFields p fields = fields.all fun entry => entry.2.all p := by
  induction fields with
  | nil => rfl
  | cons entry fields ih => rw [allFields, ih, List.all_cons]

theorem all_ofStrings (h : ∀ s, p (.str s) = true) (texts : List String) :
    (ofStrings texts).all p = true := by
  rw [ofStrings, all, allItems_eq, List.all_map]
  exact List.all_eq_true.mpr fun text _ => h text

theorem all_of_find? (h : (obj fields).all p = true)
    (hfind : Assoc.find? name fields = some value) : value.all p = true := by
  rw [all, allFields_eq, List.all_eq_true] at h
  exact h (name, value) (Assoc.mem_of_find? hfind)

theorem nullFree_of_get? {document : Json} (h : document.nullFree = true)
    (hget : document.get? name = some value) : value.nullFree = true := by
  cases document with
  | obj fields => exact all_of_find? h hget
  | null | bool | num | str | arr => cases hget

end Json

namespace Document

open Json (nullFree)

/-! ## Numbers -/

section Numbers

theorem isFinite_widen (x : Float32) : (Numeric.widen x).isFinite = x.isFinite := by
  rw [Bool.eq_iff_iff, Numeric.isFinite_iff_value?, Numeric.single_isFinite_iff_value?]
  constructor
  · rintro ⟨v, hv⟩
    by_contra hnone
    have hread : Numeric.ofFloat32? x = none := by
      cases hb : Numeric.ofFloat32? x with
      | none => rfl
      | some b => exact absurd ⟨b.value, congrArg (Option.map Numeric.Binary.value) hb⟩ hnone
    have hfinite := (Numeric.isFinite_iff_value? _).mpr ⟨v, hv⟩
    rw [Numeric.widen, hread] at hfinite
    -- what is not finite becomes one of three values that are not finite either
    have hnan : Numeric.nan.isFinite = false := by decide +kernel
    have hinfinite (negative : Bool) : (Numeric.infinite negative).isFinite = false := by
      cases negative <;> decide +kernel
    simp only at hfinite
    split at hfinite
    · rw [hnan] at hfinite
      cases hfinite
    · rw [hinfinite] at hfinite
      cases hfinite
  · rintro ⟨v, hv⟩
    exact ⟨v, Numeric.value?_widen hv⟩

/-- A number is shown as null just when it is not finite. -/
theorem nullFree_number (x : Float) : (Json.number x).nullFree = x.isFinite := by
  cases hfinite : x.isFinite with
  | true =>
      obtain ⟨v, hv⟩ := (Numeric.isFinite_iff_value? x).mp hfinite
      obtain ⟨n, hshown, -⟩ := number_exact hv
      rw [hshown]
      rfl
  | false =>
      have hread : Numeric.ofFloat? x = none := by
        cases hb : Numeric.ofFloat? x with
        | none => rfl
        | some b =>
            have hvalue := (Numeric.isFinite_iff_value? x).mpr
              ⟨b.value, congrArg (Option.map Numeric.Binary.value) hb⟩
            rw [hfinite] at hvalue
            cases hvalue
      rw [Json.number, hread]
      rfl

theorem nullFree_ofSingle (x : Float32) : (ofSingle x).nullFree = x.isFinite := by
  rw [ofSingle, nullFree_number, isFinite_widen]

end Numbers

/-! ## Components -/

section Components

variable {s : Store} {e : Nat}

theorem nullFree_ofVec3 (v : Vec3) : (ofVec3 v).nullFree = v.isFinite := by
  have hx := nullFree_ofSingle v.x
  have hy := nullFree_ofSingle v.y
  have hz := nullFree_ofSingle v.z
  rw [nullFree] at hx hy hz ⊢
  simp only [ofVec3, Json.all, Json.allFields, hx, hy, hz, Vec3.isFinite, Bool.and_true,
    Bool.and_assoc]

theorem nullFree_ofRotation (q : Rotation) : (ofRotation q).nullFree = q.isFinite := by
  have hx := nullFree_ofSingle q.x
  have hy := nullFree_ofSingle q.y
  have hz := nullFree_ofSingle q.z
  have hw := nullFree_ofSingle q.w
  rw [nullFree] at hx hy hz hw ⊢
  simp only [ofRotation, Json.all, Json.allFields, hx, hy, hz, hw, Rotation.isFinite,
    Bool.and_true]
  cases q.w.isFinite <;> simp [Bool.and_assoc]

theorem nullFree_ofTransform (t : Transform) : (ofTransform t).nullFree = t.isFinite := by
  have hanchor := nullFree_ofVec3 t.anchor
  have hposition := nullFree_ofVec3 t.position
  have hrotation := nullFree_ofRotation t.rotation
  have hscale := nullFree_ofVec3 t.scale
  rw [nullFree] at hanchor hposition hrotation hscale ⊢
  simp only [ofTransform, Json.all, Json.allFields, hanchor, hposition, hrotation, hscale,
    Transform.isFinite, Bool.and_true]
  cases t.anchor.isFinite <;> simp [Bool.and_assoc]

theorem nullFree_ofEdges (l : Edges) : (ofEdges l).nullFree = l.isFinite := by
  have htop := nullFree_ofSingle l.top
  have hright := nullFree_ofSingle l.right
  have hbottom := nullFree_ofSingle l.bottom
  have hleft := nullFree_ofSingle l.left
  rw [nullFree] at htop hright hbottom hleft ⊢
  simp only [ofEdges, Json.all, Json.allFields, htop, hright, hbottom, hleft, Edges.isFinite,
    Bool.and_true]
  cases l.top.isFinite <;> cases l.right.isFinite <;> simp

theorem nullFree_ofLayout (l : Layout) : (ofLayout l).nullFree = l.isFinite := by
  have hx := nullFree_ofSingle l.x
  have hy := nullFree_ofSingle l.y
  have hwidth := nullFree_ofSingle l.width
  have hheight := nullFree_ofSingle l.height
  rw [nullFree] at hx hy hwidth hheight ⊢
  simp only [ofLayout, Json.all, Json.allFields, hx, hy, hwidth, hheight, Layout.isFinite,
    Bool.and_true]
  cases l.x.isFinite <;> cases l.y.isFinite <;> simp [Bool.and_comm]

theorem nullFree_ofProperty (p : Property) : (ofProperty p).nullFree = p.isFinite := by
  cases p with
  | bool b => rfl
  | text s => rfl
  | number x => exact nullFree_number x

theorem nullFree_ofAttribute (a : FlexAttribute) (v : a.Value) :
    (ofAttribute a v).nullFree = a.isFinite v := by
  cases a with
  | direction | justifyContent | alignItems | alignSelf | wrap | positionType => rfl
  | border | margin | padding => exact nullFree_ofEdges v
  | basis | gap | grow | height | maxHeight | maxWidth | minHeight | minWidth | shrink | width =>
      exact nullFree_ofSingle v

/-- Members that may be absent, some of which have a value. -/
theorem all_present (p : Json → Bool) (entries : List (String × Option Json)) :
    (Json.obj (present entries)).all p = entries.all fun entry => entry.2.all (Json.all p) := by
  rw [Json.all, Json.allFields_eq]
  induction entries with
  | nil => rfl
  | cons entry entries ih =>
      obtain ⟨name, value?⟩ := entry
      cases value? with
      | none => exact ih
      | some value =>
          have hcons : present ((name, some value) :: entries) = (name, value) :: present entries :=
            rfl
          rw [hcons, List.all_cons, List.all_cons, ih]
          rfl

theorem nullFree_ofFlex (style : FlexStyle) : (ofFlex style).nullFree = style.isFinite := by
  rw [nullFree, ofFlex, all_present, FlexStyle.isFinite, List.all_map]
  congr 1
  funext a
  cases hget : style.get a with
  | none => simp [hget]
  | some v => simpa [hget, nullFree] using nullFree_ofAttribute a v

theorem nullFree_ofProperties (properties : Properties) :
    (ofProperties properties).nullFree = properties.all fun entry => entry.2.isFinite := by
  rw [nullFree, ofProperties, Json.all, Json.allFields_eq, List.all_map]
  congr 1
  funext entry
  exact nullFree_ofProperty entry.2

end Components

end Document

/-- Whether all numbers in the value of a component are finite. -/
def Component.isFinite : (c : Component) → c.Value → Bool
  | .name, _ | .tags, _ | .parent, _ => true
  | .transform, t => Transform.isFinite t
  | .properties, p => List.all p fun entry => entry.2.isFinite
  | .flex, s => FlexStyle.isFinite s
  | .layout, l => Layout.isFinite l

namespace Document

open Json (nullFree)

section Members

variable {s : Store} {e : Nat}

/-- What is shown of a component has no null just when its numbers are finite. -/
theorem nullFree_shown (c : Component) (v : c.Value) :
    (shown c v).all nullFree = c.isFinite v := by
  cases c with
  | name | parent => rfl
  | tags => exact Json.all_ofStrings (fun _ => rfl) (Tags.toList v)
  | transform => exact nullFree_ofTransform v
  | properties => exact nullFree_ofProperties v
  | flex =>
      rw [shown]
      split
      · next hempty =>
          have hunset : FlexStyle.isFinite v = true := by
            refine List.all_eq_true.mpr ?_
            intro a _
            rw [isEmpty_iff.mp hempty a]
            rfl
          exact hunset.symm
      · exact nullFree_ofFlex v
  | layout => exact nullFree_ofLayout v

/-- A natural number of a word is shown as an integer. -/
theorem nullFree_ofNat {n : Nat} (h : n < 2 ^ 64) : (Json.ofNat n).nullFree = true := by
  have hrange : -9223372036854775808 ≤ (n : Int) ∧ (n : Int) < 18446744073709551616 := by omega
  rw [Json.ofNat, Json.ofInt, dif_pos hrange]
  rfl

/-- A member of the document of an entity has no null if the component that it shows is finite. -/
theorem nullFree_of_find?_members (hactive : s.isActive e = true) (he : e < 2 ^ 64) {name : String}
    {value : Json} (hfind : Assoc.find? name (members s e) = some value)
    (h : ∀ c, key c = name → ∀ v, s.get? c e = some v → c.isFinite v = true) :
    value.nullFree = true := by
  by_cases hname : ∃ c, key c = name
  · obtain ⟨c, rfl⟩ := hname
    rw [find?_members_key hactive] at hfind
    obtain ⟨v, hv, hshown⟩ := Option.bind_eq_some_iff.mp hfind
    have hfinite := nullFree_shown c v
    rw [hshown, h c rfl v hv] at hfinite
    exact hfinite
  · rw [members_eq hactive, Assoc.find?, find?_present_of_ne fun c heq => hname ⟨c, heq⟩] at hfind
    split at hfind
    · obtain rfl := Option.some.inj hfind
      exact nullFree_ofNat he
    · cases hfind

/-- The document of an entity has no null just when all numbers of its components are finite. -/
theorem nullFree_members (hactive : s.isActive e = true) (he : e < 2 ^ 64) :
    (Json.obj (members s e)).nullFree = true ↔
      ∀ c v, s.get? c e = some v → c.isFinite v = true := by
  have hindex := nullFree_ofNat he
  have hcomponents : (Json.obj (members s e)).nullFree = true ↔
      ∀ c, ((s.get? c e).bind (shown c)).all nullFree = true := by
    rw [members_eq hactive, nullFree, Json.all, Json.allFields, ← nullFree, hindex, Bool.true_and,
      ← Json.all, all_present, List.all_map, List.all_eq_true]
    exact ⟨fun h c => h c (mem_inKeyOrder c), fun h c _ => h c⟩
  rw [hcomponents]
  refine forall_congr' fun c => ?_
  cases hget : s.get? c e with
  | none => simp
  | some v => simp [nullFree_shown]

end Members

/-! ## Equal values -/

section Equality

/-- Numbers that are equal are shown alike. -/
theorem number_congr {x y : Float} (h : (x == y) = true) : Json.number x = Json.number y := by
  have hzero : Json.number 0 = Json.number (-0) := rfl
  obtain ⟨-, -, rfl | ⟨rfl, rfl⟩ | ⟨rfl, rfl⟩⟩ := Float.beq_iff_ne_nan_and_eq.mp h
  · rfl
  · exact hzero
  · exact hzero.symm

theorem ofSingle_congr {x y : Float32} (h : (x == y) = true) : ofSingle x = ofSingle y := by
  have hzero : ofSingle 0 = ofSingle (-0) := rfl
  obtain ⟨-, -, rfl | ⟨rfl, rfl⟩ | ⟨rfl, rfl⟩⟩ := Float32.beq_iff_ne_nan_and_eq.mp h
  · rfl
  · exact hzero
  · exact hzero.symm

theorem ofVec3_congr {u v : Vec3} (h : (u == v) = true) : ofVec3 u = ofVec3 v := by
  simp only [Vec3.beq_eq, Bool.and_eq_true] at h
  obtain ⟨hx, hy, hz⟩ := h
  rw [ofVec3, ofVec3, ofSingle_congr hx, ofSingle_congr hy, ofSingle_congr hz]

theorem ofRotation_congr {q r : Rotation} (h : (q == r) = true) : ofRotation q = ofRotation r := by
  simp only [Rotation.beq_eq, Bool.and_eq_true] at h
  obtain ⟨hx, hy, hz, hw⟩ := h
  rw [ofRotation, ofRotation, ofSingle_congr hx, ofSingle_congr hy, ofSingle_congr hz,
    ofSingle_congr hw]

theorem ofEdges_congr {k l : Edges} (h : (k == l) = true) : ofEdges k = ofEdges l := by
  simp only [Edges.beq_eq, Bool.and_eq_true] at h
  obtain ⟨htop, hright, hbottom, hleft⟩ := h
  rw [ofEdges, ofEdges, ofSingle_congr htop, ofSingle_congr hright, ofSingle_congr hbottom,
    ofSingle_congr hleft]

theorem ofProperty_congr {p q : Property} (h : (p == q) = true) : ofProperty p = ofProperty q := by
  cases p with
  | bool b =>
      cases q with
      | bool c => exact congrArg Json.bool (beq_iff_eq.mp h)
      | number | text => cases h
  | number x =>
      cases q with
      | number y => exact number_congr h
      | bool | text => cases h
  | text s =>
      cases q with
      | text t => exact congrArg Json.str (beq_iff_eq.mp h)
      | bool | number => cases h

theorem ofAttribute_congr (a : FlexAttribute) {v w : a.Value} (h : (v == w) = true) :
    ofAttribute a v = ofAttribute a w := by
  cases a with
  | direction | justifyContent | alignItems | alignSelf | wrap | positionType =>
      exact congrArg (ofAttribute _) (beq_iff_eq.mp h)
  | border | margin | padding => exact ofEdges_congr h
  | basis | gap | grow | height | maxHeight | maxWidth | minHeight | minWidth | shrink | width =>
      exact ofSingle_congr h

end Equality

end Document
end EntityRules
