import EntityRules.Numeric.Binary

/-!
# Decimal numerals and floating-point numbers

**Input.**  A finite `Float`, or the characters of a decimal numeral.

**Algorithm.**  All reals strictly between the midpoints to the two neighbours of a number
read back as that number; the midpoints themselves do so exactly when its mantissa is even.
`shortest` walks the grids of multiples of `10 ^ g` from coarse to fine and stops at the first
one with a point in that interval.  Of two such points it takes the nearer, and the even one
of two equally near.  `readFloat?` is the reverse: it reads a numeral as an exact ratio and
rounds it once.  The digits of an exponent count until it has reached `exponentBound`.

**Results.**  `shortest` has the fewest digits that read back; `readFloat?` rounds correctly.
`valueOfDigits_append` says what a row of digits is worth.
-/

namespace EntityRules
namespace Numeric

/-- The number `digits · 10 ^ exponent`. -/
structure Decimal where
  digits : Nat
  exponent : Int
deriving DecidableEq, Repr

/-- The positive part of an integer and the positive part of its opposite. -/
def parts (n : Int) : Nat × Nat := (n.toNat, (-n).toNat)

/-- A power of ten. -/
def powerOfTen (n : Nat) : Nat := Nat.pow 10 n

namespace Decimal

/-- Beyond this power of ten every numeral is infinite or zero as a `Float`. -/
def range : Int := 400

/-- The nearest `Float`. -/
def toFloat (negative : Bool) (d : Decimal) : Float :=
  if d.digits = 0 then Binary.toFloat ⟨negative, 0, 0⟩
  else if range < d.exponent then infinite negative
  else if d.exponent < -range - (d.digits.log2 + 1 : Nat) then Binary.toFloat ⟨negative, 0, 0⟩
  else
    let scale := parts d.exponent
    let bits := double.magnitude (d.digits * powerOfTen scale.1) (powerOfTen scale.2)
    Float.ofBits (UInt64.ofNat (bits + if negative then double.signWeight else 0))

end Decimal

/-! ## The fewest digits -/

/-- The multiple of `10 ^ g` in the interval that reads back as `b`, if there is one.  Lengths
are counted in quarters of the last place of `b`. -/
def Binary.onGrid? (b : Binary) (g : Int) : Option Nat :=
  let power := parts g
  let last := parts (b.exponent - 2)
  let scaled (quarters : Nat) : Nat := quarters * powerOfTwo last.1 * powerOfTen power.2
  let unit := powerOfTwo last.2 * powerOfTen power.1
  let value := scaled (4 * b.mantissa)
  let below := if b.mantissa = powerOfTwo 52 ∧ double.minExponent < b.exponent then 1 else 2
  let low := scaled (4 * b.mantissa - below)
  let high := scaled (4 * b.mantissa + 2)
  let inside (n : Nat) : Bool :=
    if b.mantissa % 2 = 0 then low ≤ n * unit && n * unit ≤ high
    else low < n * unit && n * unit < high
  let q := value / unit
  let rest := value % unit
  if inside q then
    if inside (q + 1) then
      if 2 * rest < unit then some q
      else if unit < 2 * rest then some (q + 1)
      else some (q + q % 2)
    else some q
  else if inside (q + 1) then some (q + 1)
  else none

/-- The first grid with a point, among `n` grids from `10 ^ g` downward. -/
def Binary.firstGrid (b : Binary) : Nat → Int → Decimal
  | 0, g => ⟨0, g⟩
  | n + 1, g =>
    match b.onGrid? g with
    | some digits => ⟨digits, g⟩
    | none => b.firstGrid n (g - 1)

/-- The numeral with the fewest digits that reads back as a nonzero `b`.  A decimal digit is
worth more than three bits, so the first grid is too coarse and the walk is short. -/
def Binary.shortest (b : Binary) : Decimal :=
  let bits : Int := b.mantissa.log2 + 1 + b.exponent
  let top := if 0 ≤ bits then bits * 30103 / 100000 + 2 else bits * 30102 / 100000 + 2
  b.firstGrid 24 top

/-! ## Reading a numeral -/

/-- The value of a decimal digit. -/
def digit? (c : Char) : Option Nat :=
  if '0' ≤ c ∧ c ≤ '9' then some (c.toNat - '0'.toNat) else none

/-- Whether a character is a decimal digit. -/
def isDigit (c : Char) : Bool := (digit? c).isSome

/-- The leading decimal digits of a text, and what follows them. -/
def spanDigits (s : List Char) : List Char × List Char :=
  s.span isDigit

/-- Joins neighbours of a row of digits, the last digit first: half as many digits of the same
value in the square of the base. -/
def joinPairs (base : Nat) : List Nat → List Nat
  | low :: high :: rest => (low + base * high) :: joinPairs base rest
  | digits => digits

/-- The value of a row of digits in a base, the last digit first. -/
def valueInBase (base : Nat) (digits : List Nat) : Nat :=
  digits.foldr (fun digit higher => digit + base * higher) 0

/-- The same value, after the row was halved some times.  Few products of long numbers take the
place of many with short ones. -/
def valueByHalves : Nat → Nat → List Nat → Nat
  | _, _, [] => 0
  | _, _, [digit] => digit
  | 0, base, digits => valueInBase base digits
  | steps + 1, base, digits => valueByHalves steps (base * base) (joinPairs base digits)

theorem valueInBase_joinPairs (base : Nat) (digits : List Nat) :
    valueInBase (base * base) (joinPairs base digits) = valueInBase base digits := by
  fun_induction joinPairs base digits with
  | case1 low high rest ih =>
    simp only [valueInBase, List.foldr_cons] at ih ⊢
    rw [ih, Nat.mul_add, Nat.mul_assoc, Nat.add_assoc]
  | case2 digits h =>
    match digits, h with
    | [], _ => rfl
    | [digit], _ => simp [valueInBase]
    | low :: high :: rest, h => exact absurd rfl (h low high rest)

theorem valueByHalves_eq (steps base : Nat) (digits : List Nat) :
    valueByHalves steps base digits = valueInBase base digits := by
  fun_induction valueByHalves steps base digits with
  | case1 => rfl
  | case2 => simp [valueInBase]
  | case3 => rfl
  | case4 steps base digits _ _ ih => rw [ih, valueInBase_joinPairs]

/-- The value of a row of decimal digits. -/
def valueOfDigits (s : List Char) : Nat :=
  valueByHalves (s.length.log2 + 1) 10 (s.reverse.map fun c => (digit? c).getD 0)

/-- Every digit weighs ten times as much as the one after it. -/
theorem valueOfDigits_append (s : List Char) (c : Char) :
    valueOfDigits (s ++ [c]) = 10 * valueOfDigits s + (digit? c).getD 0 := by
  simp [valueOfDigits, valueByHalves_eq, valueInBase, Nat.add_comm]

/-- An exponent that has reached this bound takes no more digits. -/
def exponentBound : Nat := 65536

/-- The value of the digits of an exponent, as far as it takes them. -/
def valueOfExponent (s : List Char) : Nat :=
  s.foldl (fun n c => if n < exponentBound then 10 * n + (digit? c).getD 0 else n) 0

/-- A natural number written as an optional plus sign and at least one digit. -/
def readNat? (s : List Char) : Option Nat :=
  let body := match s with
    | '+' :: rest => rest
    | _ => s
  if body.isEmpty || !body.all isDigit then none else some (valueOfDigits body)

/-- An optional sign, and what follows it. -/
def spanSign : List Char → Bool × List Char
  | '-' :: rest => (true, rest)
  | '+' :: rest => (false, rest)
  | s => (false, s)

/-- The exponent part of a numeral, which must be the rest of the text. -/
def readExponent? : List Char → Option Int
  | [] => some 0
  | e :: rest =>
    if e = 'e' ∨ e = 'E' then
      let (negative, body) := spanSign rest
      if body.isEmpty || !body.all isDigit then none
      else
        let n : Int := valueOfExponent body
        some (if negative then -n else n)
    else none

/-- An unsigned numeral: digits, an optional point among or around them, an optional exponent. -/
def readUnsigned? (s : List Char) : Option Decimal :=
  let (whole, rest) := spanDigits s
  let (fraction, rest) := match rest with
    | '.' :: rest => spanDigits rest
    | _ => ([], rest)
  if whole.isEmpty && fraction.isEmpty then none
  else
    (readExponent? rest).map fun e =>
      ⟨valueOfDigits (whole ++ fraction), e - fraction.length⟩

/-- Reads a signed numeral, or the words `inf`, `infinity` and `nan` in any case. -/
def readFloat? (s : List Char) : Option Float :=
  let (negative, body) := spanSign s
  match readUnsigned? body with
  | some d => some (d.toFloat negative)
  | none =>
    let word := String.ofList (body.map Char.toLower)
    if word = "inf" ∨ word = "infinity" then some (infinite negative)
    else if word = "nan" then some nan
    else none

end Numeric
end EntityRules
