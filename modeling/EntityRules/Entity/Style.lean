/-!
# Layout attributes

**Input.**  Symbols such as `RowReverse`, lengths, and lengths for the four edges of a box.

**Algorithm.**  A style gives every attribute a value or none.  The attributes are an
enumeration, and the type of a value depends on the attribute; `get` and `set` reach the
fields of a style through it.

**Results.**  `FlexStyle.get_set_self`, `FlexStyle.get_set_of_ne` and `FlexStyle.ext_get` make a
style the function from attributes to values.
-/

namespace EntityRules

/-! ## Symbols -/

/-- An enumeration whose members are written as symbols. -/
class Symbols (α : Type) where
  /-- All members, in order. -/
  all : List α
  /-- The symbol of a member. -/
  symbol : α → String

namespace Symbols

/-- Whether two texts differ at most in the case of ASCII letters. -/
def sameSymbol (s t : String) : Bool :=
  s.toList.map Char.toLower == t.toList.map Char.toLower

/-- The member with a symbol, up to the case of ASCII letters. -/
def ofSymbol? {α : Type} [Symbols α] (text : String) : Option α :=
  all.find? fun member => sameSymbol (symbol member) text

/-- All symbols, in order. -/
def symbols (α : Type) [Symbols α] : List String := (all (α := α)).map symbol

end Symbols

/-- The main axis of a container. -/
inductive FlexDirection where
  | row
  | column
  | rowReverse
  | columnReverse
deriving DecidableEq, Repr

instance : Symbols FlexDirection where
  all := [.row, .column, .rowReverse, .columnReverse]
  symbol
    | .row => "Row"
    | .column => "Column"
    | .rowReverse => "RowReverse"
    | .columnReverse => "ColumnReverse"

/-- The distribution of items along the main axis. -/
inductive JustifyContent where
  | flexStart
  | center
  | flexEnd
  | spaceBetween
  | spaceAround
  | spaceEvenly
deriving DecidableEq, Repr

instance : Symbols JustifyContent where
  all := [.flexStart, .center, .flexEnd, .spaceBetween, .spaceAround, .spaceEvenly]
  symbol
    | .flexStart => "FlexStart"
    | .center => "Center"
    | .flexEnd => "FlexEnd"
    | .spaceBetween => "SpaceBetween"
    | .spaceAround => "SpaceAround"
    | .spaceEvenly => "SpaceEvenly"

/-- The position of items across the main axis. -/
inductive Align where
  | auto
  | flexStart
  | center
  | flexEnd
  | stretch
  | baseline
deriving DecidableEq, Repr

instance : Symbols Align where
  all := [.auto, .flexStart, .center, .flexEnd, .stretch, .baseline]
  symbol
    | .auto => "Auto"
    | .flexStart => "FlexStart"
    | .center => "Center"
    | .flexEnd => "FlexEnd"
    | .stretch => "Stretch"
    | .baseline => "Baseline"

/-- Whether items continue in a further line. -/
inductive FlexWrap where
  | noWrap
  | wrap
  | wrapReverse
deriving DecidableEq, Repr

instance : Symbols FlexWrap where
  all := [.noWrap, .wrap, .wrapReverse]
  symbol
    | .noWrap => "NoWrap"
    | .wrap => "Wrap"
    | .wrapReverse => "WrapReverse"

/-- Whether an item takes part in the flow. -/
inductive PositionType where
  | relative
  | absolute
deriving DecidableEq, Repr

instance : Symbols PositionType where
  all := [.relative, .absolute]
  symbol
    | .relative => "Relative"
    | .absolute => "Absolute"

/-! ## Attributes -/

/-- A length for each edge of a box. -/
structure Edges where
  top : Float32
  right : Float32
  bottom : Float32
  left : Float32

/-- The attributes of a layout. -/
inductive FlexAttribute where
  | alignItems
  | alignSelf
  | basis
  | border
  | direction
  | gap
  | grow
  | height
  | justifyContent
  | margin
  | maxHeight
  | maxWidth
  | minHeight
  | minWidth
  | padding
  | positionType
  | shrink
  | width
  | wrap
deriving DecidableEq, Repr

namespace FlexAttribute

/-- All attributes, in the order of their keys. -/
def all : List FlexAttribute :=
  [alignItems, alignSelf, basis, border, direction, gap, grow, height, justifyContent, margin,
   maxHeight, maxWidth, minHeight, minWidth, padding, positionType, shrink, width, wrap]

/-- The key of an attribute. -/
def key : FlexAttribute → String
  | alignItems => "alignItems"
  | alignSelf => "alignSelf"
  | basis => "basis"
  | border => "border"
  | direction => "direction"
  | gap => "gap"
  | grow => "grow"
  | height => "height"
  | justifyContent => "justifyContent"
  | margin => "margin"
  | maxHeight => "maxHeight"
  | maxWidth => "maxWidth"
  | minHeight => "minHeight"
  | minWidth => "minWidth"
  | padding => "padding"
  | positionType => "positionType"
  | shrink => "shrink"
  | width => "width"
  | wrap => "wrap"

/-- The attribute with a key. -/
def ofKey? (text : String) : Option FlexAttribute := all.find? fun a => a.key = text

/-- The type of the values of an attribute. -/
abbrev Value : FlexAttribute → Type
  | direction => FlexDirection
  | justifyContent => JustifyContent
  | alignItems | alignSelf => Align
  | wrap => FlexWrap
  | positionType => PositionType
  | border | margin | padding => Edges
  | basis | gap | grow | height | maxHeight | maxWidth | minHeight | minWidth | shrink
  | width => Float32

end FlexAttribute

/-- The layout attributes of an entity, each of which may be unset. -/
structure FlexStyle where
  alignItems : Option Align := none
  alignSelf : Option Align := none
  basis : Option Float32 := none
  border : Option Edges := none
  direction : Option FlexDirection := none
  gap : Option Float32 := none
  grow : Option Float32 := none
  height : Option Float32 := none
  justifyContent : Option JustifyContent := none
  margin : Option Edges := none
  maxHeight : Option Float32 := none
  maxWidth : Option Float32 := none
  minHeight : Option Float32 := none
  minWidth : Option Float32 := none
  padding : Option Edges := none
  positionType : Option PositionType := none
  shrink : Option Float32 := none
  width : Option Float32 := none
  wrap : Option FlexWrap := none

namespace FlexStyle

/-- The style without attributes. -/
def empty : FlexStyle := {}

/-- The value of an attribute. -/
def get (s : FlexStyle) : (a : FlexAttribute) → Option a.Value
  | .alignItems => s.alignItems
  | .alignSelf => s.alignSelf
  | .basis => s.basis
  | .border => s.border
  | .direction => s.direction
  | .gap => s.gap
  | .grow => s.grow
  | .height => s.height
  | .justifyContent => s.justifyContent
  | .margin => s.margin
  | .maxHeight => s.maxHeight
  | .maxWidth => s.maxWidth
  | .minHeight => s.minHeight
  | .minWidth => s.minWidth
  | .padding => s.padding
  | .positionType => s.positionType
  | .shrink => s.shrink
  | .width => s.width
  | .wrap => s.wrap

/-- Gives an attribute a value, or unsets it. -/
def set (s : FlexStyle) : (a : FlexAttribute) → Option a.Value → FlexStyle
  | .alignItems, v => { s with alignItems := v }
  | .alignSelf, v => { s with alignSelf := v }
  | .basis, v => { s with basis := v }
  | .border, v => { s with border := v }
  | .direction, v => { s with direction := v }
  | .gap, v => { s with gap := v }
  | .grow, v => { s with grow := v }
  | .height, v => { s with height := v }
  | .justifyContent, v => { s with justifyContent := v }
  | .margin, v => { s with margin := v }
  | .maxHeight, v => { s with maxHeight := v }
  | .maxWidth, v => { s with maxWidth := v }
  | .minHeight, v => { s with minHeight := v }
  | .minWidth, v => { s with minWidth := v }
  | .padding, v => { s with padding := v }
  | .positionType, v => { s with positionType := v }
  | .shrink, v => { s with shrink := v }
  | .width, v => { s with width := v }
  | .wrap, v => { s with wrap := v }

/-- Whether no attribute is set. -/
def isEmpty (s : FlexStyle) : Bool := FlexAttribute.all.all fun a => (s.get a).isNone

section Values

@[simp] theorem get_set_self (s : FlexStyle) (a : FlexAttribute) (v : Option a.Value) :
    (s.set a v).get a = v := by
  cases a <;> rfl

theorem get_set_of_ne (s : FlexStyle) {a b : FlexAttribute} (h : a ≠ b) (v : Option a.Value) :
    (s.set a v).get b = s.get b := by
  cases a <;> cases b <;> simp_all [get, set]

theorem ext_get {s t : FlexStyle} (h : ∀ a, s.get a = t.get a) : s = t := by
  cases s
  cases t
  simp only [FlexStyle.mk.injEq]
  exact ⟨h .alignItems, h .alignSelf, h .basis, h .border, h .direction, h .gap, h .grow,
    h .height, h .justifyContent, h .margin, h .maxHeight, h .maxWidth, h .minHeight,
    h .minWidth, h .padding, h .positionType, h .shrink, h .width, h .wrap⟩

end Values

end FlexStyle
end EntityRules
