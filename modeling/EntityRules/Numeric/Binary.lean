/-!
# Binary floating-point numbers as exact ratios

**Input.**  A `Float` or `Float32`, or a ratio of natural numbers.

**Algorithm.**  Every finite number of a binary format is `± mantissa · 2 ^ exponent`.
`ofFloat?` and `ofFloat32?` read these three parts off the bit pattern.  In the other
direction `Format.magnitude` divides in the natural numbers and rounds once, to the nearest
number of the format and to the even one of two equally near; past the largest number it
gives the bit pattern of infinity.

**Results.**  Narrowing, widening, truncation, the exact remainder and the conversion of
integers are all stated through these two directions, so each of them rounds at most once.
-/

namespace EntityRules
namespace Numeric

/-- A power of two. -/
def powerOfTwo (n : Nat) : Nat := 1 <<< n

/-- A binary interchange format: significant bits, the leading one included, and exponent bits. -/
structure Format where
  precision : Nat
  exponentBits : Nat

/-- The format of `Float`. -/
def double : Format := ⟨53, 11⟩

/-- The format of `Float32`. -/
def single : Format := ⟨24, 8⟩

namespace Format

/-- The exponent of the smallest positive number of the format. -/
def minExponent (f : Format) : Int :=
  3 - powerOfTwo (f.exponentBits - 1) - f.precision

/-- The bit pattern of positive infinity. -/
def infinity (f : Format) : Nat :=
  (powerOfTwo f.exponentBits - 1) * powerOfTwo (f.precision - 1)

/-- The weight of the sign bit. -/
def signWeight (f : Format) : Nat :=
  powerOfTwo (f.precision - 1 + f.exponentBits)

end Format

/-- The natural number nearest to `num / den`, and the even one of two equally near. -/
def nearestEven (num den : Nat) : Nat :=
  let quotient := num / den
  let rest := num % den
  if 2 * rest < den then quotient
  else if den < 2 * rest then quotient + 1
  else quotient + quotient % 2

/-- `num / den` divided by `2 ^ exponent`, again as a ratio. -/
def shiftRatio (num den : Nat) (exponent : Int) : Nat × Nat :=
  match exponent with
  | .ofNat e => (num, den * powerOfTwo e)
  | .negSucc e => (num * powerOfTwo (e + 1), den)

namespace Format

/-- The least exponent not below `minExponent` at which `num / den` needs no more than the
precision of the format. -/
def exponentFor (f : Format) (num den : Nat) : Int :=
  if num = 0 then f.minExponent
  else
    let guess := max ((num.log2 : Int) - den.log2 - f.precision) f.minExponent
    let scaled := shiftRatio num den (guess + f.precision)
    if scaled.1 < scaled.2 then guess else guess + 1

/-- The bit pattern, without sign, of the number of the format nearest to `num / den`. -/
def magnitude (f : Format) (num den : Nat) : Nat :=
  let exponent := f.exponentFor num den
  let scaled := shiftRatio num den exponent
  let bits := (exponent - f.minExponent).toNat * powerOfTwo (f.precision - 1)
    + nearestEven scaled.1 scaled.2
  min bits f.infinity

end Format

/-- The finite number `± mantissa · 2 ^ exponent`; a zero keeps its sign. -/
structure Binary where
  negative : Bool
  mantissa : Nat
  exponent : Int
deriving DecidableEq, Repr

namespace Binary

/-- Reads the bit pattern of a format; `none` for an infinity or a number that is not one. -/
def ofBits? (f : Format) (bits : Nat) : Option Binary :=
  let negative := f.signWeight ≤ bits
  let hidden := powerOfTwo (f.precision - 1)
  let field := bits / hidden % powerOfTwo f.exponentBits
  let fraction := bits % hidden
  if field + 1 = powerOfTwo f.exponentBits then none
  else if field = 0 then some ⟨negative, fraction, f.minExponent⟩
  else some ⟨negative, fraction + hidden, f.minExponent + field - 1⟩

/-- The absolute value as a ratio. -/
def ratio (b : Binary) : Nat × Nat :=
  shiftRatio b.mantissa 1 (-b.exponent)

/-- The bit pattern of the nearest number of a format. -/
def toBits (f : Format) (b : Binary) : Nat :=
  f.magnitude b.ratio.1 b.ratio.2 + if b.negative then f.signWeight else 0

/-- The integer part: the number rounded toward zero. -/
def truncate (b : Binary) : Int :=
  let size : Int := b.ratio.1 / b.ratio.2
  if b.negative then -size else size

/-- Whether the number is an integer. -/
def isWhole (b : Binary) : Bool :=
  b.ratio.1 % b.ratio.2 == 0

end Binary

/-- The exact value of a finite `Float`. -/
def ofFloat? (x : Float) : Option Binary :=
  Binary.ofBits? double x.toBits.toNat

/-- The exact value of a finite `Float32`. -/
def ofFloat32? (x : Float32) : Option Binary :=
  Binary.ofBits? single x.toBits.toNat

/-- The `Float` nearest to an exact value. -/
def Binary.toFloat (b : Binary) : Float :=
  Float.ofBits (UInt64.ofNat (b.toBits double))

/-- The `Float32` nearest to an exact value. -/
def Binary.toFloat32 (b : Binary) : Float32 :=
  Float32.ofBits (UInt32.ofNat (b.toBits single))

/-- The `Float` nearest to an integer. -/
def floatOfInt (n : Int) : Float :=
  Binary.toFloat ⟨decide (n < 0), n.natAbs, 0⟩

/-- The value that is not a number. -/
def nan : Float := Float.ofBits 0x7ff8000000000000

/-- Positive or negative infinity. -/
def infinite (negative : Bool) : Float :=
  if negative then Float.ofBits 0xfff0000000000000 else Float.ofBits 0x7ff0000000000000

/-- Whether the sign bit is set. -/
def signBit (x : Float) : Bool :=
  double.signWeight ≤ x.toBits.toNat

/-- Rounds to single precision; an infinity, also one that arises here, keeps its sign. -/
def narrow (x : Float) : Float32 :=
  match ofFloat? x with
  | some b => b.toFloat32
  | none =>
    if x.isNaN then Float32.ofBits 0x7fc00000
    else if signBit x then Float32.ofBits 0xff800000
    else Float32.ofBits 0x7f800000

/-- The same number in double precision. -/
def widen (x : Float32) : Float :=
  match ofFloat32? x with
  | some b => b.toFloat
  | none => if x.isNaN then nan else infinite (single.signWeight ≤ x.toBits.toNat)

/-- The least signed word of 64 bits. -/
def minInt64 : Int := -9223372036854775808

/-- The greatest signed word of 64 bits. -/
def maxInt64 : Int := 9223372036854775807

/-- The signed word of 64 bits that is nearest to an integer. -/
def clampInt64 (n : Int) : Int :=
  max minInt64 (min n maxInt64)

/-- Rounds toward zero into a signed word of 64 bits: values out of range take the nearest
bound, and what is not a number becomes zero. -/
def toInt64 (x : Float) : Int :=
  match ofFloat? x with
  | some b => clampInt64 b.truncate
  | none => if x.isNaN then 0 else if signBit x then minInt64 else maxInt64

/-- The exact remainder of a division rounded toward zero; it has the sign of the dividend. -/
def remainder (x y : Float) : Float :=
  match ofFloat? x, ofFloat? y with
  | some a, some b =>
    if b.mantissa = 0 then nan
    else
      let e := min a.exponent b.exponent
      let p := a.mantissa * powerOfTwo (a.exponent - e).toNat
      let q := b.mantissa * powerOfTwo (b.exponent - e).toNat
      Binary.toFloat ⟨a.negative, p % q, e⟩
  | some _, none => if y.isNaN then nan else x
  | none, _ => nan

/-- The smaller of two numbers; a value that is not a number loses against one that is. -/
def minimum (x y : Float) : Float :=
  if x.isNaN then y else if y.isNaN then x else if y < x then y else x

/-- The greater of two numbers; a value that is not a number loses against one that is. -/
def maximum (x y : Float) : Float :=
  if x.isNaN then y else if y.isNaN then x else if x < y then y else x

end Numeric
end EntityRules
