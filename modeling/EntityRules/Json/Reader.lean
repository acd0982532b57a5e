import EntityRules.Json.Basic
import EntityRules.Numeric.Decimal

/-!
# Reading documents

**Input.**  The characters of a text.

**Algorithm.**  Reading has two stages.  `Written.read?` recognises the grammar and keeps
everything as it stands: numerals as digits, escapes as code units, members in order and with
repetitions.  `Written.toJson?` then gives the written value its meaning: pairs of surrogate
units become characters, numerals become numbers, and the last of several members with one
key wins.  It refuses a unit without its partner, a number beyond the finite range and too
deep a nesting.  A reader that ignores a member thus asks of it no more than the grammar.

A numeral without point and exponent is an integer if it fits a signed or unsigned word of 64
bits.  All other numerals keep the digits that fit an unsigned word of 64 bits and are scaled
by one power of ten after another, each step rounded; the result can differ from the nearest
number in its last place.

**Results.**  `Json.read?` reads a whole text.
-/

namespace EntityRules

/-- A part of a quoted text: a character, or the unit of an escape with four digits. -/
inductive TextUnit where
  | char (c : Char)
  | unit (n : Nat)

/-- A numeral: sign, digits before and after the point, sign and digits of the exponent. -/
structure Numeral where
  negative : Bool
  whole : List Char
  fraction : Option (List Char)
  exponent : Option (Bool × List Char)

/-- A value as it is written. -/
inductive Written where
  | null
  | bool (b : Bool)
  | numeral (n : Numeral)
  | string (units : List TextUnit)
  | array (items : List Written)
  | object (members : List (List TextUnit × Written))

namespace Written

open Numeric (spanDigits spanSign valueOfDigits)

/-! ## The grammar -/

/-- The characters between the parts of a value. -/
def isGap (c : Char) : Bool := c = ' ' || c = '\t' || c = '\n' || c = '\r'

/-- The text after leading gaps. -/
def skipGaps (s : List Char) : List Char := s.dropWhile isGap

/-- The value of a hexadecimal digit. -/
def hexDigit? (c : Char) : Option Nat :=
  if '0' ≤ c ∧ c ≤ '9' then some (c.toNat - '0'.toNat)
  else if 'a' ≤ c ∧ c ≤ 'f' then some (c.toNat - 'a'.toNat + 10)
  else if 'A' ≤ c ∧ c ≤ 'F' then some (c.toNat - 'A'.toNat + 10)
  else none

/-- The unit written by four hexadecimal digits. -/
def unitOf? (a b c d : Char) : Option Nat := do
  let a ← hexDigit? a
  let b ← hexDigit? b
  let c ← hexDigit? c
  let d ← hexDigit? d
  pure (((a * 16 + b) * 16 + c) * 16 + d)

/-- The character that a one-letter escape stands for. -/
def shortEscape? (c : Char) : Option Char :=
  if c = '"' || c = '\\' || c = '/' then some c
  else if c = 'b' then some '\x08'
  else if c = 'f' then some '\x0c'
  else if c = 'n' then some '\n'
  else if c = 'r' then some '\r'
  else if c = 't' then some '\t'
  else none

/-- The units up to the closing quotation mark, in reverse order before those in `done`, and
the text after the mark. -/
def stringUnits? : List Char → List TextUnit → Option (List TextUnit × List Char)
  | '"' :: rest, done => some (done.reverse, rest)
  | '\\' :: 'u' :: a :: b :: c :: d :: rest, done =>
    match unitOf? a b c d with
    | some n => stringUnits? rest (.unit n :: done)
    | none => none
  | '\\' :: e :: rest, done =>
    match shortEscape? e with
    | some c => stringUnits? rest (.char c :: done)
    | none => none
  | c :: rest, done =>
    if c.toNat < 0x20 ∨ c = '\\' then none else stringUnits? rest (.char c :: done)
  | [], _ => none

/-- The fraction of a numeral, if a point begins one. -/
def fraction? : List Char → Option (Option (List Char) × List Char)
  | '.' :: rest =>
    let (digits, rest) := spanDigits rest
    if digits.isEmpty then none else some (some digits, rest)
  | s => some (none, s)

/-- The exponent of a numeral, if a letter begins one. -/
def exponent? : List Char → Option (Option (Bool × List Char) × List Char)
  | [] => some (none, [])
  | e :: rest =>
    if e = 'e' ∨ e = 'E' then
      let (negative, rest) := spanSign rest
      let (digits, rest) := spanDigits rest
      if digits.isEmpty then none else some (some (negative, digits), rest)
    else some (none, e :: rest)

/-- A numeral at the start of a text: no plus sign, and no zero before other digits. -/
def numeral? (s : List Char) : Option (Numeral × List Char) := do
  let (negative, rest) := match s with
    | '-' :: rest => (true, rest)
    | _ => (false, s)
  let (whole, rest) := spanDigits rest
  guard (!whole.isEmpty && (whole.length == 1 || whole.head? != some '0'))
  let (fraction, rest) ← fraction? rest
  let (exponent, rest) ← exponent? rest
  pure (⟨negative, whole, fraction, exponent⟩, rest)

mutual

/-- The value at the start of a text.  The first argument bounds the number of characters. -/
def value? : Nat → List Char → Option (Written × List Char)
  | 0, _ => none
  | bound + 1, s =>
    match skipGaps s with
    | 'n' :: 'u' :: 'l' :: 'l' :: rest => some (.null, rest)
    | 't' :: 'r' :: 'u' :: 'e' :: rest => some (.bool true, rest)
    | 'f' :: 'a' :: 'l' :: 's' :: 'e' :: rest => some (.bool false, rest)
    | '"' :: rest => (stringUnits? rest []).map fun (units, rest) => (.string units, rest)
    | '[' :: rest =>
      match skipGaps rest with
      | ']' :: rest => some (.array [], rest)
      | rest => items? bound rest []
    | '{' :: rest =>
      match skipGaps rest with
      | '}' :: rest => some (.object [], rest)
      | rest => members? bound rest []
    | s => (numeral? s).map fun (n, rest) => (.numeral n, rest)

/-- The items of a list that has at least one more, after those in `done`. -/
def items? : Nat → List Char → List Written → Option (Written × List Char)
  | 0, _, _ => none
  | bound + 1, s, done =>
    match value? bound s with
    | none => none
    | some (item, rest) =>
      match skipGaps rest with
      | ',' :: rest => items? bound rest (item :: done)
      | ']' :: rest => some (.array (item :: done).reverse, rest)
      | _ => none

/-- The members of an object that has at least one more, after those in `done`. -/
def members? : Nat → List Char → List (List TextUnit × Written) →
    Option (Written × List Char)
  | 0, _, _ => none
  | bound + 1, s, done =>
    match skipGaps s with
    | '"' :: rest =>
      match stringUnits? rest [] with
      | none => none
      | some (key, rest) =>
        match skipGaps rest with
        | ':' :: rest =>
          match value? bound rest with
          | none => none
          | some (value, rest) =>
            match skipGaps rest with
            | ',' :: rest => members? bound rest ((key, value) :: done)
            | '}' :: rest => some (.object ((key, value) :: done).reverse, rest)
            | _ => none
        | _ => none
    | _ => none

end

/-- Reads a text that holds one value and nothing else.  Each step of the recognition passes
a character or ends a list, so twice the length bounds the steps. -/
def read? (s : List Char) : Option Written :=
  match value? (2 * s.length + 2) s with
  | some (value, rest) => if (skipGaps rest).isEmpty then some value else none
  | none => none

/-! ## The meaning -/

/-- The characters of a quoted text, before those in `done` in reverse order; a surrogate unit
must stand in a pair. -/
def decode? : List TextUnit → List Char → Option String
  | [], done => some (String.ofList done.reverse)
  | .char c :: rest, done => decode? rest (c :: done)
  | .unit n :: rest, done =>
    if n < 0xd800 ∨ 0xe000 ≤ n then decode? rest (Char.ofNat n :: done)
    else if 0xdc00 ≤ n then none
    else
      match rest with
      | .unit m :: rest =>
        if 0xdc00 ≤ m ∧ m < 0xe000 then
          decode? rest (Char.ofNat (0x10000 + (n - 0xd800) * 0x400 + (m - 0xdc00)) :: done)
        else none
      | _ => none

/-- The greatest unsigned word of 64 bits. -/
def maxWord : Nat := UInt64.size - 1

/-- Appends digits to a number while it fits an unsigned word; also the number of digits that
were left over. -/
def significand (start : Nat) : List Char → Nat × Nat
  | [] => (start, 0)
  | c :: rest =>
    let next := start * 10 + (Numeric.digit? c).getD 0
    if next ≤ maxWord then significand next rest else (start, rest.length + 1)

/-- The number nearest to `10 ^ n`. -/
def tenTo (n : Nat) : Float := Numeric.Decimal.toFloat false ⟨1, n⟩

/-- The greatest power of ten that is finite. -/
def maxPower : Nat := 308

/-- Scales by a power of ten in steps of at most `maxPower`, each rounded.  Two steps down
reach zero from every unsigned word, which bounds their number. -/
def scale? : Nat → Float → Int → Option Float
  | 0, x, _ => some x
  | steps + 1, x, exponent =>
    if exponent.natAbs ≤ maxPower then
      if 0 ≤ exponent then
        let y := x * tenTo exponent.natAbs
        if y.isInf then none else some y
      else some (x / tenTo exponent.natAbs)
    else if x == 0 then some x
    else if 0 ≤ exponent then none
    else scale? steps (x / tenTo maxPower) (exponent + maxPower)

/-- The number of given sign, significand and exponent. -/
def real? (negative : Bool) (digits : Nat) (exponent : Int) : Option Json :=
  (scale? 4 (Numeric.floatOfInt digits) exponent).map fun x =>
    Json.ofFloat (if negative then -x else x)

/-- The greatest number of an exponent. -/
def maxExponent : Nat := 2147483647

/-- The number that a numeral stands for. -/
def number? (n : Numeral) : Option Json :=
  let (digits, left) := significand 0 n.whole
  match n.fraction, n.exponent with
  | none, none =>
    if left = 0 then
      if n.negative then
        if 0 < digits ∧ Numeric.minInt64 ≤ -digits then some (.ofInt (-digits))
        else real? true digits 0
      else some (.ofNat digits)
    else real? n.negative digits left
  | fraction, exponent =>
    let after := fraction.getD []
    let (digits, ignored) := significand digits after
    let start : Int := left - (after.length - ignored : Nat)
    match exponent with
    | none => real? n.negative digits start
    | some (down, text) =>
      let size := valueOfDigits text
      if size ≤ maxExponent then
        let shifted := if down then start - size else start + size
        let least : Int := -2147483648
        real? n.negative digits (max least (min shifted maxExponent))
      else if digits = 0 ∨ down then real? n.negative 0 0
      else none

mutual

/-- The value that is meant, unless its lists and objects nest deeper than `depth`. -/
def toJson? (depth : Nat) : Written → Option Json
  | .null => some .null
  | .bool b => some (.bool b)
  | .numeral n => number? n
  | .string units => (decode? units []).map .str
  | .array items =>
    match depth with
    | 0 => none
    | depth + 1 => (itemsToJson? depth items).map .arr
  | .object members =>
    match depth with
    | 0 => none
    | depth + 1 => (membersToJson? depth members []).map .obj

/-- The items of a list. -/
def itemsToJson? (depth : Nat) : List Written → Option (List Json)
  | [] => some []
  | item :: rest => do
    let item ← toJson? depth item
    let rest ← itemsToJson? depth rest
    pure (item :: rest)

/-- The members of an object, put into those read so far. -/
def membersToJson? (depth : Nat) : List (List TextUnit × Written) → Fields → Option Fields
  | [], done => some done
  | (key, value) :: rest, done => do
    let key ← decode? key []
    let value ← toJson? depth value
    membersToJson? depth rest (Assoc.insert key value done)

end

end Written

namespace Json

/-- The deepest nesting of lists and objects that is read. -/
def maxDepth : Nat := 127

/-- Reads a text that holds one document and nothing else. -/
def read? (text : String) : Option Json :=
  (Written.read? text.toList).bind (Written.toJson? maxDepth)

end Json
end EntityRules
