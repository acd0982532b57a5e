import EntityRules.Document.Write
import EntityRules.Proofs.Numeric.Value

/-!
# Values of components in a document and back

Components are compared field by field, their numbers numerically.  A number of single
precision is shown by its exact value, as an integer if it is whole, and is narrowed again when
it is read; symbols are shown in the spelling in which they are looked up.

**Results.**
* `number_exact`: a finite number becomes a number of the same value.
* `toVec3_ofVec3`, `toRotation_ofRotation`, `toAttribute_ofAttribute`: what is shown of a
  finite value is read as an equal one.
-/

namespace EntityRules

deriving instance BEq for Vec3, Rotation, Transform, Layout, Edges, Property

section Equality

theorem Vec3.beq_eq (u v : Vec3) : (u == v) = (u.x == v.x && (u.y == v.y && u.z == v.z)) := rfl

theorem Rotation.beq_eq (q r : Rotation) :
    (q == r) = (q.x == r.x && (q.y == r.y && (q.z == r.z && q.w == r.w))) := rfl

theorem Transform.beq_eq (t u : Transform) :
    (t == u) = (t.position == u.position && (t.rotation == u.rotation &&
      (t.scale == u.scale && t.anchor == u.anchor))) := rfl

theorem Edges.beq_eq (k l : Edges) :
    (k == l) = (k.top == l.top && (k.right == l.right &&
      (k.bottom == l.bottom && k.left == l.left))) := rfl

theorem Layout.beq_eq (l m : Layout) :
    (l == m) = (l.x == m.x && (l.y == m.y && (l.width == m.width && l.height == m.height))) := rfl

instance : (a : FlexAttribute) → BEq a.Value
  | .direction => inferInstanceAs (BEq FlexDirection)
  | .justifyContent => inferInstanceAs (BEq JustifyContent)
  | .alignItems | .alignSelf => inferInstanceAs (BEq Align)
  | .wrap => inferInstanceAs (BEq FlexWrap)
  | .positionType => inferInstanceAs (BEq PositionType)
  | .border | .margin | .padding => inferInstanceAs (BEq Edges)
  | .basis | .gap | .grow | .height | .maxHeight | .maxWidth | .minHeight | .minWidth | .shrink
  | .width => inferInstanceAs (BEq Float32)

/-- Styles are equal when all attributes are. -/
instance : BEq FlexStyle := ⟨fun s t => FlexAttribute.all.all fun a => s.get a == t.get a⟩

instance : (c : Component) → BEq c.Value
  | .name => inferInstanceAs (BEq String)
  | .tags => inferInstanceAs (BEq Tags)
  | .transform => inferInstanceAs (BEq Transform)
  | .properties => inferInstanceAs (BEq (List (String × Property)))
  | .parent => inferInstanceAs (BEq Selector)
  | .flex => inferInstanceAs (BEq FlexStyle)
  | .layout => inferInstanceAs (BEq Layout)

end Equality

section Finiteness

def Vec3.isFinite (v : Vec3) : Bool := v.x.isFinite && v.y.isFinite && v.z.isFinite

def Rotation.isFinite (q : Rotation) : Bool :=
  q.x.isFinite && q.y.isFinite && q.z.isFinite && q.w.isFinite

def Transform.isFinite (t : Transform) : Bool :=
  t.position.isFinite && t.rotation.isFinite && t.scale.isFinite && t.anchor.isFinite

def Layout.isFinite (l : Layout) : Bool :=
  l.x.isFinite && l.y.isFinite && l.width.isFinite && l.height.isFinite

def Edges.isFinite (e : Edges) : Bool :=
  e.top.isFinite && e.right.isFinite && e.bottom.isFinite && e.left.isFinite

def Property.isFinite : Property → Bool
  | .number x => x.isFinite
  | _ => true

def FlexAttribute.isFinite : (a : FlexAttribute) → a.Value → Bool
  | .direction, _ | .justifyContent, _ | .alignItems, _ | .alignSelf, _ | .wrap, _
  | .positionType, _ => true
  | .border, v | .margin, v | .padding, v => Edges.isFinite v
  | .basis, v | .gap, v | .grow, v | .height, v | .maxHeight, v | .maxWidth, v | .minHeight, v
  | .minWidth, v | .shrink, v | .width, v => Float32.isFinite v

def FlexStyle.isFinite (s : FlexStyle) : Bool :=
  FlexAttribute.all.all fun a => (s.get a).all a.isFinite

end Finiteness

section Reflexivity

/-- A number of single precision is equal to itself unless it is no number. -/
theorem single_beq_self {x : Float32} (h : x.isFinite = true) : (x == x) = true := by
  obtain ⟨v, hvalue⟩ := (Numeric.single_isFinite_iff_value? x).mp h
  exact (Numeric.beq_iff_value? hvalue hvalue).mpr rfl

theorem Layout.beq_self {l : Layout} (h : l.isFinite = true) : (l == l) = true := by
  simp only [Layout.isFinite, Bool.and_eq_true] at h
  obtain ⟨⟨⟨hx, hy⟩, hwidth⟩, hheight⟩ := h
  simp only [Layout.beq_eq, single_beq_self hx, single_beq_self hy, single_beq_self hwidth,
    single_beq_self hheight, Bool.and_self]

theorem Edges.beq_self {l : Edges} (h : l.isFinite = true) : (l == l) = true := by
  simp only [Edges.isFinite, Bool.and_eq_true] at h
  obtain ⟨⟨⟨htop, hright⟩, hbottom⟩, hleft⟩ := h
  simp only [Edges.beq_eq, single_beq_self htop, single_beq_self hright, single_beq_self hbottom,
    single_beq_self hleft, Bool.and_self]

theorem FlexAttribute.beq_self (a : FlexAttribute) {v : a.Value} (h : a.isFinite v = true) :
    (v == v) = true := by
  cases a with
  | direction | justifyContent | alignItems | alignSelf | wrap | positionType =>
      exact beq_self_eq_true v
  | border | margin | padding => exact Edges.beq_self h
  | basis | gap | grow | height | maxHeight | maxWidth | minHeight | minWidth | shrink | width =>
      exact single_beq_self h

theorem FlexAttribute.mem_all (a : FlexAttribute) : a ∈ all := by
  cases a <;> decide

/-- Equality of styles, attribute by attribute. -/
theorem FlexStyle.beq_iff {s t : FlexStyle} :
    (s == t) = true ↔ ∀ a, (s.get a == t.get a) = true := by
  change (FlexAttribute.all.all fun a => s.get a == t.get a) = true ↔ _
  rw [List.all_eq_true]
  exact ⟨fun h a => h a a.mem_all, fun h a _ => h a⟩

theorem FlexStyle.isFinite_get {s : FlexStyle} (h : s.isFinite = true) {a : FlexAttribute}
    {v : a.Value} (hget : s.get a = some v) : a.isFinite v = true := by
  have hall := List.all_eq_true.mp h a a.mem_all
  rwa [hget] at hall

theorem FlexStyle.beq_self {s : FlexStyle} (h : s.isFinite = true) : (s == s) = true := by
  refine FlexStyle.beq_iff.mpr fun a => ?_
  cases hget : s.get a with
  | none => rfl
  | some v => exact a.beq_self (s.isFinite_get h hget)

end Reflexivity

namespace Document

open Numeric (value?)

section Numbers

/-- A finite number becomes a number of the same value. -/
theorem number_exact {x : Float} {v : ℚ} (h : value? x = some v) :
    ∃ n, Json.number x = .num n ∧ value? n.toFloat = some v := by
  have hfinite : x.isFinite = true := (Numeric.isFinite_iff_value? x).mpr ⟨v, h⟩
  obtain ⟨b, hb, rfl⟩ := Option.map_eq_some_iff.mp h
  have hread : Numeric.ofFloat? x = some b := hb
  rw [Json.number, hread]
  by_cases hwhole : (b.isWhole && b.truncate.natAbs < Numeric.powerOfTwo 53) = true
  · obtain ⟨hinteger, hsmall⟩ := Bool.and_eq_true_iff.mp hwhole
    have hbound : b.truncate.natAbs < 2 ^ 53 := by
      simpa [Numeric.powerOfTwo_eq] using hsmall
    have hrange : -9223372036854775808 ≤ b.truncate ∧ b.truncate < 18446744073709551616 := by
      omega
    refine ⟨.int b.truncate hrange, ?_, ?_⟩
    · simp only [hwhole, if_true, Json.ofInt, dif_pos hrange]
    · rw [← Numeric.truncate_eq_value hinteger]
      exact Numeric.value?_floatOfInt hbound
  · refine ⟨.real x hfinite, ?_, h⟩
    simp only [if_neg hwhole, Json.ofFloat, dif_pos hfinite]

/-- A number of single precision is shown without loss. -/
theorem ofSingle_exact {x : Float32} (h : x.isFinite = true) :
    ∃ n, ofSingle x = .num n ∧ (Numeric.narrow n.toFloat == x) = true := by
  obtain ⟨v, hvalue⟩ := (Numeric.single_isFinite_iff_value? x).mp h
  obtain ⟨n, hshown, hn⟩ := number_exact (Numeric.value?_widen hvalue)
  have hnarrow := Numeric.value?_narrow hn (Numeric.holds_of_value? hvalue)
  exact ⟨n, hshown, (Numeric.beq_iff_value? hnarrow hvalue).mpr rfl⟩

theorem component_ofSingle {fields : Fields} {name : String} {x : Float32}
    (hfind : Assoc.find? name fields = some (ofSingle x)) (h : x.isFinite = true) :
    ∃ y, component fields name = .ok y ∧ (y == x) = true := by
  obtain ⟨n, hshown, hequal⟩ := ofSingle_exact h
  refine ⟨_, ?_, hequal⟩
  rw [component, hfind, hshown]
  rfl

theorem toSingle_ofSingle {x : Float32} (h : x.isFinite = true) :
    ∃ y, toSingle (ofSingle x) = .ok (some y) ∧ (y == x) = true := by
  obtain ⟨n, hshown, hequal⟩ := ofSingle_exact h
  refine ⟨_, ?_, hequal⟩
  rw [hshown]
  rfl

end Numbers

section Records

theorem toVec3_ofVec3 {v : Vec3} (h : v.isFinite = true) :
    ∃ u, toVec3 (ofVec3 v) = .ok u ∧ (u == v) = true := by
  simp only [Vec3.isFinite, Bool.and_eq_true] at h
  obtain ⟨⟨hx, hy⟩, hz⟩ := h
  rw [ofVec3, toVec3]
  generalize hfields : [("x", ofSingle v.x), ("y", ofSingle v.y), ("z", ofSingle v.z)] = fields
  obtain ⟨x, hreadX, hequalX⟩ : ∃ x, component fields "x" = .ok x ∧ (x == v.x) = true :=
    component_ofSingle (hfields ▸ rfl) hx
  obtain ⟨y, hreadY, hequalY⟩ : ∃ y, component fields "y" = .ok y ∧ (y == v.y) = true :=
    component_ofSingle (hfields ▸ rfl) hy
  obtain ⟨z, hreadZ, hequalZ⟩ : ∃ z, component fields "z" = .ok z ∧ (z == v.z) = true :=
    component_ofSingle (hfields ▸ rfl) hz
  refine ⟨⟨x, y, z⟩, ?_, ?_⟩
  · rw [hreadX, hreadY, hreadZ]
    rfl
  · simp only [Vec3.beq_eq, hequalX, hequalY, hequalZ, Bool.and_self]

theorem toRotation_ofRotation {q : Rotation} (h : q.isFinite = true) :
    ∃ r, toRotation (ofRotation q) = .ok r ∧ (r == q) = true := by
  simp only [Rotation.isFinite, Bool.and_eq_true] at h
  obtain ⟨⟨⟨hx, hy⟩, hz⟩, hw⟩ := h
  rw [ofRotation, toRotation]
  generalize hfields : [("w", ofSingle q.w), ("x", ofSingle q.x), ("y", ofSingle q.y),
    ("z", ofSingle q.z)] = fields
  obtain ⟨x, hreadX, hequalX⟩ : ∃ x, component fields "x" = .ok x ∧ (x == q.x) = true :=
    component_ofSingle (hfields ▸ rfl) hx
  obtain ⟨y, hreadY, hequalY⟩ : ∃ y, component fields "y" = .ok y ∧ (y == q.y) = true :=
    component_ofSingle (hfields ▸ rfl) hy
  obtain ⟨z, hreadZ, hequalZ⟩ : ∃ z, component fields "z" = .ok z ∧ (z == q.z) = true :=
    component_ofSingle (hfields ▸ rfl) hz
  obtain ⟨w, hreadW, hequalW⟩ : ∃ w, component fields "w" = .ok w ∧ (w == q.w) = true :=
    component_ofSingle (hfields ▸ rfl) hw
  refine ⟨⟨x, y, z, w⟩, ?_, ?_⟩
  · rw [hreadX, hreadY, hreadZ, hreadW]
    rfl
  · simp only [Rotation.beq_eq, hequalX, hequalY, hequalZ, hequalW, Bool.and_self]

theorem toEdges_ofEdges {l : Edges} (h : l.isFinite = true) :
    ∃ k, toEdges (ofEdges l) = .ok (some k) ∧ (k == l) = true := by
  simp only [Edges.isFinite, Bool.and_eq_true] at h
  obtain ⟨⟨⟨htop, hright⟩, hbottom⟩, hleft⟩ := h
  rw [ofEdges, toEdges]
  generalize hfields : [("bottom", ofSingle l.bottom), ("left", ofSingle l.left),
    ("right", ofSingle l.right), ("top", ofSingle l.top)] = fields
  obtain ⟨top, hreadTop, hequalTop⟩ :
      ∃ x, component fields "top" = .ok x ∧ (x == l.top) = true :=
    component_ofSingle (hfields ▸ rfl) htop
  obtain ⟨right, hreadRight, hequalRight⟩ :
      ∃ x, component fields "right" = .ok x ∧ (x == l.right) = true :=
    component_ofSingle (hfields ▸ rfl) hright
  obtain ⟨bottom, hreadBottom, hequalBottom⟩ :
      ∃ x, component fields "bottom" = .ok x ∧ (x == l.bottom) = true :=
    component_ofSingle (hfields ▸ rfl) hbottom
  obtain ⟨left, hreadLeft, hequalLeft⟩ :
      ∃ x, component fields "left" = .ok x ∧ (x == l.left) = true :=
    component_ofSingle (hfields ▸ rfl) hleft
  refine ⟨⟨top, right, bottom, left⟩, ?_, ?_⟩
  · rw [hreadTop, hreadRight, hreadBottom, hreadLeft]
    rfl
  · simp only [Edges.beq_eq, hequalTop, hequalRight, hequalBottom, hequalLeft, Bool.and_self]

end Records

section Symbols

/-- An enumeration whose symbols are told apart. -/
class LawfulSymbols (α : Type) [Symbols α] : Prop where
  ofSymbol?_symbol (member : α) : Symbols.ofSymbol? (Symbols.symbol member) = some member

instance : LawfulSymbols FlexDirection := ⟨fun member => by cases member <;> decide⟩

instance : LawfulSymbols JustifyContent := ⟨fun member => by cases member <;> decide⟩

instance : LawfulSymbols Align := ⟨fun member => by cases member <;> decide⟩

instance : LawfulSymbols FlexWrap := ⟨fun member => by cases member <;> decide⟩

instance : LawfulSymbols PositionType := ⟨fun member => by cases member <;> decide⟩

theorem toSymbol_ofSymbol {α : Type} [Symbols α] [LawfulSymbols α] (member : α) :
    toSymbol α (ofSymbol member) = .ok (some member) := by
  simp only [ofSymbol, toSymbol, LawfulSymbols.ofSymbol?_symbol]

/-- A finite attribute of a layout is read as an equal one. -/
theorem toAttribute_ofAttribute (a : FlexAttribute) {v : a.Value} (h : a.isFinite v = true) :
    ∃ w, toAttribute (ofAttribute a v) a = .ok (some w) ∧ (w == v) = true := by
  cases a with
  | direction | justifyContent | alignItems | alignSelf | wrap | positionType =>
      exact ⟨v, toSymbol_ofSymbol v, beq_self_eq_true v⟩
  | border | margin | padding => exact toEdges_ofEdges h
  | basis | gap | grow | height | maxHeight | maxWidth | minHeight | minWidth | shrink | width =>
      exact toSingle_ofSingle h

end Symbols

end Document

end EntityRules
