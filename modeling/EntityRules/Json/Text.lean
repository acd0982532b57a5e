import EntityRules.Json.Basic
import EntityRules.Numeric.Decimal

/-!
# The text of a document

**Input.**  A document.

**Algorithm.**  The text is compact: no blanks, members in key order.  A text escapes the
quotation mark, the backslash and the characters below the blank, and nothing else.  A
floating-point number is written with the fewest digits that read back, plainly while its
decimal exponent is between -5 and 15 and in scientific form otherwise.

**Results.**  `Json.text` writes every document on one line.
-/

namespace EntityRules
namespace Json

/-- The four hexadecimal digits of an escaped control character. -/
def controlDigits (n : Nat) : List Char :=
  ['0', '0', Nat.digitChar (n / 16), Nat.digitChar (n % 16)]

/-- A character inside quotation marks. -/
def escape (c : Char) : List Char :=
  if c = '"' then ['\\', '"']
  else if c = '\\' then ['\\', '\\']
  else if c = '\n' then ['\\', 'n']
  else if c = '\r' then ['\\', 'r']
  else if c = '\t' then ['\\', 't']
  else if c = '\x08' then ['\\', 'b']
  else if c = '\x0c' then ['\\', 'f']
  else if c.toNat < 0x20 then '\\' :: 'u' :: controlDigits c.toNat
  else [c]

/-- A text between quotation marks. -/
def quote (s : String) : String :=
  if s.all (fun c => 0x20 ≤ c.toNat && c ≠ '"' && c ≠ '\\') then "\"" ++ s ++ "\""
  else String.ofList ('"' :: s.toList.flatMap escape ++ ['"'])

/-- The digits of a positive number, with the point after the first `point` of them, and zeros
where digits are lacking on either side. -/
def placePoint (digits : String) (point : Int) : String :=
  let count : Int := digits.length
  let zeros (n : Int) : String := String.ofList (List.replicate n.toNat '0')
  if count ≤ point then digits ++ zeros (point - count) ++ ".0"
  else if 0 < point then
    String.ofList (digits.toList.take point.toNat) ++ "."
      ++ String.ofList (digits.toList.drop point.toNat)
  else "0." ++ zeros (-point) ++ digits

/-- One digit, the others after a point, and the power of ten with its sign. -/
def scientific (digits : String) (exponent : Int) : String :=
  let mantissa := match digits.toList with
    | [] => ""
    | [d] => String.singleton d
    | d :: rest => String.ofList (d :: '.' :: rest)
  mantissa ++ "e" ++ (if exponent < 0 then "-" else "+") ++ toString exponent.natAbs

/-- The decimal exponents that are written plainly. -/
def isPlain (exponent : Int) : Bool := -5 ≤ exponent && exponent ≤ 15

/-- The text of a floating-point number; that of a number that is not finite is `null`. -/
def floatText (x : Float) : String :=
  match Numeric.ofFloat? x with
  | none => "null"
  | some b =>
    let sign := if b.negative then "-" else ""
    if b.mantissa = 0 then sign ++ "0.0"
    else
      let d := b.shortest
      let digits := toString d.digits
      let exponent := d.exponent + digits.length - 1
      sign ++ if isPlain exponent then placePoint digits (exponent + 1)
        else scientific digits exponent

/-- The text of a number. -/
def numberText : Number → String
  | .int n _ => toString n
  | .real x _ => floatText x

mutual

/-- The text of a document. -/
def text : Json → String
  | .null => "null"
  | .bool b => if b then "true" else "false"
  | .num n => numberText n
  | .str s => quote s
  | .arr items => "[" ++ ",".intercalate (itemTexts items) ++ "]"
  | .obj fields => "\x7b" ++ ",".intercalate (fieldTexts fields) ++ "\x7d"

/-- The texts of the items of a list. -/
def itemTexts : List Json → List String
  | [] => []
  | x :: rest => text x :: itemTexts rest

/-- The texts of the members of an object. -/
def fieldTexts : List (String × Json) → List String
  | [] => []
  | (k, x) :: rest => (quote k ++ ":" ++ text x) :: fieldTexts rest

end

end Json
end EntityRules
