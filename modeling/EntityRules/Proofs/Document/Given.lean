import EntityRules.Proofs.Assoc
import EntityRules.Proofs.Document.Values

/-!
# Values that a document gives and what is shown of them

A value that a document gives is written into a component and shown again by the document that
is read from it.  Numbers of single precision are rounded on the way, symbols take their own
spelling, and the members of a vector or of edges are taken one by one.

**Results.**
* `roundsTo_ofSingle`: a number in the range of single precision is rounded once.
* `toVec3_given`, `toRotation_given`, `toEdges_given`: so is every member of a record.
* `toAttribute_given`: what is shown of a layout attribute, one case per kind.
* `propertyChange_given`: what is shown of a property.
-/

namespace EntityRules
namespace Document

open Numeric (value? narrow widen)

section Numbers

/-- A number in the range of single precision. -/
def IsSingle (value : Json) : Prop :=
  ∃ n, value = .num n ∧ (narrow n.toFloat).isFinite = true

/-- The number that is shown is the given one in single precision. -/
def RoundsTo (given shown : Json) : Prop :=
  ∃ m n, given = .num m ∧ shown = .num n ∧ (n.toFloat == widen (narrow m.toFloat)) = true

theorem isFinite_toFloat (n : Number) : n.toFloat.isFinite = true := by
  cases n with
  | int n inRange =>
      have hword : n.natAbs < 2 ^ 64 := by omega
      exact Numeric.floatOfInt_isFinite hword
  | real x finite => exact finite

theorem roundsTo_ofSingle {n : Number} (h : (narrow n.toFloat).isFinite = true) :
    RoundsTo (.num n) (ofSingle (narrow n.toFloat)) := by
  obtain ⟨v, hvalue⟩ := (Numeric.single_isFinite_iff_value? _).mp h
  have hwide := Numeric.value?_widen hvalue
  obtain ⟨m, hshown, hm⟩ := number_exact hwide
  exact ⟨n, m, rfl, hshown, (Numeric.beq_iff_value? hm hwide).mpr rfl⟩

theorem toSingle_given {value : Json} (h : IsSingle value) :
    ∃ x, toSingle value = .ok (some x) ∧ RoundsTo value (ofSingle x) := by
  obtain ⟨n, rfl, hrange⟩ := h
  exact ⟨narrow n.toFloat, rfl, roundsTo_ofSingle hrange⟩

end Numbers

section Records

/-- An object whose members of the given names are numbers in the range of single precision. -/
def IsRecord (names : List String) (value : Json) : Prop :=
  ∃ fields, value = .obj fields ∧
    ∀ name ∈ names, ∃ member, Assoc.find? name fields = some member ∧ IsSingle member

/-- An object with the members of the given names only, each of which is the given one in single
precision. -/
structure RecordRoundsTo (names : List String) (given shown : Json) : Prop where
  named : ∀ name ∈ names, ∃ member entry, given.get? name = some member ∧
    shown.get? name = some entry ∧ RoundsTo member entry
  others : ∀ name, name ∉ names → shown.get? name = none

theorem recordRoundsTo_obj {names : List String} {given : Json} {entries : Fields}
    (hnames : entries.map Prod.fst = names) (hdistinct : names.Nodup)
    (h : ∀ entry ∈ entries, ∃ member, given.get? entry.1 = some member ∧
      RoundsTo member entry.2) :
    RecordRoundsTo names given (.obj entries) := by
  subst hnames
  constructor
  · intro name hname
    obtain ⟨⟨_, value⟩, hmem, rfl⟩ := List.mem_map.mp hname
    obtain ⟨member, hgiven, hrounds⟩ := h _ hmem
    exact ⟨member, value, hgiven, (Assoc.find?_eq_some_iff hdistinct).mpr hmem, hrounds⟩
  · intro name hname
    refine Assoc.find?_eq_none_iff.mpr ?_
    intro entry hmem heq
    exact hname (List.mem_map.mpr ⟨entry, hmem, heq⟩)

/-- A member of a record is read and shown in single precision. -/
theorem IsRecord.component {names : List String} {fields : Fields}
    (h : IsRecord names (.obj fields)) (name : String) (hname : name ∈ names) :
    ∃ x, component fields name = .ok x ∧
      ∃ member, Assoc.find? name fields = some member ∧ RoundsTo member (ofSingle x) := by
  obtain ⟨_, heq, hmembers⟩ := h
  obtain rfl := Json.obj.inj heq
  obtain ⟨member, hfind, n, rfl, hrange⟩ := hmembers name hname
  refine ⟨narrow n.toFloat, ?_, .num n, hfind, roundsTo_ofSingle hrange⟩
  rw [Document.component, hfind]
  rfl

theorem IsRecord.exists_fields {names : List String} {value : Json} (h : IsRecord names value) :
    ∃ fields, value = .obj fields := by
  obtain ⟨fields, heq, _⟩ := h
  exact ⟨fields, heq⟩

/-- The names of the members of a vector. -/
def vec3Names : List String := ["x", "y", "z"]

/-- The names of the members of a rotation. -/
def rotationNames : List String := ["w", "x", "y", "z"]

/-- The names of the members of edges. -/
def edgeNames : List String := ["bottom", "left", "right", "top"]

theorem toVec3_given {value : Json} (h : IsRecord vec3Names value) :
    ∃ v, toVec3 value = .ok v ∧ RecordRoundsTo vec3Names value (ofVec3 v) := by
  obtain ⟨fields, rfl⟩ := h.exists_fields
  obtain ⟨x, hreadX, hroundsX⟩ := h.component "x" (by decide)
  obtain ⟨y, hreadY, hroundsY⟩ := h.component "y" (by decide)
  obtain ⟨z, hreadZ, hroundsZ⟩ := h.component "z" (by decide)
  refine ⟨⟨x, y, z⟩, ?_, recordRoundsTo_obj rfl (by decide) ?_⟩
  · rw [toVec3, hreadX, hreadY, hreadZ]
    rfl
  · simp only [List.forall_mem_cons]
    exact ⟨hroundsX, hroundsY, hroundsZ, by simp⟩

theorem toRotation_given {value : Json} (h : IsRecord rotationNames value) :
    ∃ q, toRotation value = .ok q ∧ RecordRoundsTo rotationNames value (ofRotation q) := by
  obtain ⟨fields, rfl⟩ := h.exists_fields
  obtain ⟨w, hreadW, hroundsW⟩ := h.component "w" (by decide)
  obtain ⟨x, hreadX, hroundsX⟩ := h.component "x" (by decide)
  obtain ⟨y, hreadY, hroundsY⟩ := h.component "y" (by decide)
  obtain ⟨z, hreadZ, hroundsZ⟩ := h.component "z" (by decide)
  refine ⟨⟨x, y, z, w⟩, ?_, recordRoundsTo_obj rfl (by decide) ?_⟩
  · rw [toRotation, hreadX, hreadY, hreadZ, hreadW]
    rfl
  · simp only [List.forall_mem_cons]
    exact ⟨hroundsW, hroundsX, hroundsY, hroundsZ, by simp⟩

theorem toEdges_given {value : Json} (h : IsRecord edgeNames value) :
    ∃ l, toEdges value = .ok (some l) ∧ RecordRoundsTo edgeNames value (ofEdges l) := by
  obtain ⟨fields, rfl⟩ := h.exists_fields
  obtain ⟨bottom, hreadBottom, hroundsBottom⟩ := h.component "bottom" (by decide)
  obtain ⟨left, hreadLeft, hroundsLeft⟩ := h.component "left" (by decide)
  obtain ⟨right, hreadRight, hroundsRight⟩ := h.component "right" (by decide)
  obtain ⟨top, hreadTop, hroundsTop⟩ := h.component "top" (by decide)
  refine ⟨⟨top, right, bottom, left⟩, ?_, recordRoundsTo_obj rfl (by decide) ?_⟩
  · rw [toEdges, hreadTop, hreadRight, hreadBottom, hreadLeft]
    rfl
  · simp only [List.forall_mem_cons]
    exact ⟨hroundsBottom, hroundsLeft, hroundsRight, hroundsTop, by simp⟩

end Records

section Attributes

/-- The kinds of values of layout attributes. -/
inductive AttributeKind where
  | symbol (symbols : List String)
  | length
  | edges

/-- The kind of the values of a layout attribute. -/
def kindOf : FlexAttribute → AttributeKind
  | .direction => .symbol (Symbols.symbols FlexDirection)
  | .justifyContent => .symbol (Symbols.symbols JustifyContent)
  | .alignItems | .alignSelf => .symbol (Symbols.symbols Align)
  | .wrap => .symbol (Symbols.symbols FlexWrap)
  | .positionType => .symbol (Symbols.symbols PositionType)
  | .border | .margin | .padding => .edges
  | .basis | .gap | .grow | .height | .maxHeight | .maxWidth | .minHeight | .minWidth | .shrink
  | .width => .length

namespace AttributeKind

/-- Whether a value is one of a kind; a symbol may be written in any case of ASCII letters. -/
def Accepts : AttributeKind → Json → Prop
  | .symbol symbols, value =>
    ∃ text, value = .str text ∧ ∃ symbol ∈ symbols, Symbols.sameSymbol symbol text = true
  | .length, value => IsSingle value
  | .edges, value => IsRecord edgeNames value

/-- What is shown of a value of a kind. -/
def Shows : AttributeKind → Json → Json → Prop
  | .symbol symbols, given, shown =>
    ∃ text, given = .str text ∧
      ∃ symbol ∈ symbols, Symbols.sameSymbol symbol text = true ∧ shown = .str symbol
  | .length, given, shown => RoundsTo given shown
  | .edges, given, shown => RecordRoundsTo edgeNames given shown

theorem Accepts.ne_null {kind : AttributeKind} {value : Json} (h : kind.Accepts value) :
    value ≠ .null := by
  rintro rfl
  cases kind with
  | symbol symbols =>
      obtain ⟨_, htext, _⟩ := h
      nomatch htext
  | length =>
      obtain ⟨_, hnumber, _⟩ := h
      nomatch hnumber
  | edges =>
      obtain ⟨_, hobject, _⟩ := h
      nomatch hobject

end AttributeKind

theorem toSymbol_given {α : Type} [Symbols α] {value : Json}
    (h : (AttributeKind.symbol (Symbols.symbols α)).Accepts value) :
    ∃ member, toSymbol α value = .ok (some member) ∧
      (AttributeKind.symbol (Symbols.symbols α)).Shows value (ofSymbol member) := by
  obtain ⟨text, rfl, symbol, hsymbol, hsame⟩ := h
  obtain ⟨candidate, hcandidate, rfl⟩ := List.mem_map.mp hsymbol
  have hsome : (Symbols.ofSymbol? (α := α) text).isSome = true :=
    List.find?_isSome.mpr ⟨candidate, hcandidate, hsame⟩
  obtain ⟨member, hmember⟩ := Option.isSome_iff_exists.mp hsome
  have hmem : Symbols.symbol member ∈ Symbols.symbols α :=
    List.mem_map_of_mem (List.mem_of_find?_eq_some hmember)
  have hspelling : Symbols.sameSymbol (Symbols.symbol member) text = true := by
    rw [Symbols.ofSymbol?] at hmember
    exact (List.find?_eq_some_iff_append.mp hmember).1
  refine ⟨member, ?_, text, rfl, Symbols.symbol member, hmem, hspelling, rfl⟩
  simp only [toSymbol, hmember]

theorem toAttribute_given (a : FlexAttribute) {value : Json} (h : (kindOf a).Accepts value) :
    ∃ v, toAttribute value a = .ok (some v) ∧ (kindOf a).Shows value (ofAttribute a v) := by
  cases a with
  | direction | justifyContent | alignItems | alignSelf | wrap | positionType =>
      exact toSymbol_given h
  | border | margin | padding => exact toEdges_given h
  | basis | gap | grow | height | maxHeight | maxWidth | minHeight | minWidth | shrink | width =>
      exact toSingle_given h

theorem toAttribute_null (a : FlexAttribute) : toAttribute .null a = .ok none := by
  cases a <;> rfl

end Attributes

section Properties

/-- The values that a property can take. -/
inductive IsProperty : Json → Prop
  | bool (b : Bool) : IsProperty (.bool b)
  | number (n : Number) : IsProperty (.num n)
  | text (text : String) : IsProperty (.str text)

/-- What is shown of a property; a number is the same in double precision. -/
inductive ShowsProperty : Json → Json → Prop
  | bool (b : Bool) : ShowsProperty (.bool b) (.bool b)
  | number {m n : Number} (h : (n.toFloat == m.toFloat) = true) :
    ShowsProperty (.num m) (.num n)
  | text (text : String) : ShowsProperty (.str text) (.str text)

theorem propertyChange_given {value : Json} (h : IsProperty value) :
    ∃ p, propertyChange value = .ok (some p) ∧ ShowsProperty value (ofProperty p) := by
  cases h with
  | bool b => exact ⟨.bool b, rfl, .bool b⟩
  | text text => exact ⟨.text text, rfl, .text text⟩
  | number m =>
      obtain ⟨v, hvalue⟩ := (Numeric.isFinite_iff_value? _).mp (isFinite_toFloat m)
      obtain ⟨n, hshown, hn⟩ := number_exact hvalue
      refine ⟨.number m.toFloat, rfl, ?_⟩
      rw [ofProperty, hshown]
      exact .number ((Numeric.beq_iff_value? hn hvalue).mpr rfl)

end Properties

end Document
end EntityRules
