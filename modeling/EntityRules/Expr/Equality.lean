import EntityRules.Expr.Lookup

/-!
# Equality and order of documents

**Input.**  Two documents.

**Algorithm.**  `strictlyEqual` compares two numbers by their floating-point values and all
else as values.  `looselyEqual` also converts between numbers, numerals and truth values; null
equals only itself, and lists and objects are compared as values.  `order?` compares two texts
by code points and all else as numbers.

**Results.**  `strictlyEqual`, `looselyEqual` and `order?` are the relations behind `===`, `==`
and `<`.
-/

namespace EntityRules
namespace Json

/-- Equality up to the kind of a number. -/
def strictlyEqual : Json → Json → Bool
  | .num m, .num n => m.toFloat == n.toFloat
  | a, b => a == b

/-- Whether a document is a list or an object. -/
def isCompound : Json → Bool
  | .arr _ => true
  | .obj _ => true
  | _ => false

/-- Equality with conversion of truth values and numerals to numbers. -/
def looselyEqual (a b : Json) : Bool :=
  match a, b with
  | .null, .null => true
  | .null, _ => false
  | _, .null => false
  | .str s, .str t => s == t
  | a, b =>
    if a.isCompound || b.isCompound then a == b
    else
      match a.toNumber?, b.toNumber? with
      | some x, some y => x == y
      | _, _ => false

/-- The order of two numbers, if each is a number. -/
def orderFloats? (x y : Float) : Option Ordering :=
  if x < y then some .lt
  else if y < x then some .gt
  else if x == y then some .eq
  else none

/-- The order of two documents, if they have one. -/
def order? (a b : Json) : Option Ordering :=
  match a, b with
  | .str s, .str t => some (compare s t)
  | a, b =>
    match a.toNumber?, b.toNumber? with
    | some x, some y => orderFloats? x y
    | _, _ => none

end Json
end EntityRules
