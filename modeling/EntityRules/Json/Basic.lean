import EntityRules.Assoc
import EntityRules.Numeric.Binary

/-!
# Documents

**Input.**  Values as they are exchanged: null, truth values, numbers, texts, lists and
objects.

**Algorithm.**  A number is either an integer of a signed or unsigned word of 64 bits or a
finite floating-point number, and the two kinds stay apart: `1` and `1.0` differ in their text
and as values.  Objects are association lists in key order.

**Results.**  `Json.beq` is equality of values, with floating-point numbers compared
numerically.  `ofFloat` and `number` are the two ways from a floating-point number to a value;
neither yields a number that is not finite.
-/

namespace EntityRules

/-- A number of a document. -/
inductive Number where
  /-- An integer in the joint range of signed and unsigned words of 64 bits. -/
  | int (n : Int) (inRange : -9223372036854775808 ≤ n ∧ n < 18446744073709551616)
  /-- A finite floating-point number. -/
  | real (x : Float) (finite : x.isFinite = true)

namespace Number

/-- The value as a floating-point number, rounded to the nearest. -/
def toFloat : Number → Float
  | .int n _ => Numeric.floatOfInt n
  | .real x _ => x

/-- Numbers are equal when they are of one kind and have one value. -/
def beq : Number → Number → Bool
  | .int m _, .int n _ => m == n
  | .real x _, .real y _ => x == y
  | _, _ => false

instance : BEq Number := ⟨beq⟩

/-- The number as an unsigned word of 64 bits, if it is one. -/
def toNat? : Number → Option Nat
  | .int (.ofNat n) _ => some n
  | _ => none

end Number

/-- A document. -/
inductive Json where
  | null
  | bool (b : Bool)
  | num (n : Number)
  | str (s : String)
  | arr (items : List Json)
  | obj (fields : List (String × Json))

/-- The members of an object, in key order. -/
abbrev Fields := List (String × Json)

namespace Json

instance : Inhabited Json := ⟨null⟩

mutual

/-- Equality of values: integers differ from floating-point numbers, and `0.0` equals `-0.0`. -/
def beq : Json → Json → Bool
  | .null, .null => true
  | .bool a, .bool b => a == b
  | .num m, .num n => m == n
  | .str s, .str t => s == t
  | .arr xs, .arr ys => beqItems xs ys
  | .obj fs, .obj gs => beqFields fs gs
  | _, _ => false

/-- Equality of lists, item by item. -/
def beqItems : List Json → List Json → Bool
  | [], [] => true
  | x :: xs, y :: ys => beq x y && beqItems xs ys
  | _, _ => false

/-- Equality of objects, member by member in key order. -/
def beqFields : List (String × Json) → List (String × Json) → Bool
  | [], [] => true
  | (k, x) :: fs, (l, y) :: gs => k == l && beq x y && beqFields fs gs
  | _, _ => false

end

instance : BEq Json := ⟨beq⟩

/-- An integer; one outside the range of words becomes the nearest floating-point number. -/
def ofInt (n : Int) : Json :=
  if h : -9223372036854775808 ≤ n ∧ n < 18446744073709551616 then .num (.int n h)
  else
    let x := Numeric.floatOfInt n
    if hx : x.isFinite = true then .num (.real x hx) else .null

/-- A natural number. -/
def ofNat (n : Nat) : Json := ofInt n

/-- A floating-point number as such; null stands for one that is not finite. -/
def ofFloat (x : Float) : Json :=
  if h : x.isFinite = true then .num (.real x h) else .null

/-- Whole numbers below `2 ^ 53` in size are integers, all others floating-point numbers. -/
def number (x : Float) : Json :=
  match Numeric.ofFloat? x with
  | some b =>
    if b.isWhole && b.truncate.natAbs < Numeric.powerOfTwo 53 then ofInt b.truncate else ofFloat x
  | none => .null

/-- The object with the given members; of two with one key the later wins. -/
def ofFields (entries : List (String × Json)) : Json := .obj (Assoc.ofList entries)

/-- The list of the given texts. -/
def ofStrings (texts : List String) : Json := .arr (texts.map .str)

/-- The value, with null for none. -/
def ofOption (value : Option Json) : Json := value.getD .null

/-- Whether the value is null. -/
def isNull : Json → Bool
  | .null => true
  | _ => false

/-- The items of a list. -/
def items? : Json → Option (List Json)
  | .arr items => some items
  | _ => none

/-- The members of an object. -/
def fields? : Json → Option Fields
  | .obj fields => some fields
  | _ => none

/-- The characters of a text. -/
def string? : Json → Option String
  | .str s => some s
  | _ => none

/-- A number as a floating-point number. -/
def float? : Json → Option Float
  | .num n => some n.toFloat
  | _ => none

/-- A number as an unsigned word of 64 bits. -/
def nat? : Json → Option Nat
  | .num n => n.toNat?
  | _ => none

/-- A member of an object. -/
def get? (value : Json) (key : String) : Option Json :=
  match value with
  | .obj fields => Assoc.find? key fields
  | _ => none

end Json
end EntityRules
