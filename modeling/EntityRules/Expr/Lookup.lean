import EntityRules.Json.Basic
import EntityRules.Numeric.Decimal
import EntityRules.Text.Blank

/-!
# Paths, truth and numbers of documents

**Input.**  A document, and for `lookup` a path of segments joined by dots.

**Algorithm.**  A segment selects a member of an object by key or an item of a list by its
index; the empty path is the document itself.  Null, `false`, zero, the empty text and the
empty list are untrue.  Texts that are numerals count as numbers, and so do truth values and
null.

**Results.**  `Json.lookup`, `Json.truthy` and `Json.toNumber?` are total; `Text.pieces_ne_nil` says
that every path has a segment.
-/

namespace EntityRules
namespace Text

/-- The pieces of a text between the occurrences of a separator. -/
def pieces (separator : Char) : List Char → List (List Char)
  | [] => [[]]
  | c :: rest =>
    if c = separator then [] :: pieces separator rest
    else
      match pieces separator rest with
      | [] => [[c]]
      | piece :: others => (c :: piece) :: others

theorem pieces_ne_nil (separator : Char) (s : List Char) : pieces separator s ≠ [] := by
  cases s with
  | nil => simp [pieces]
  | cons c rest =>
    by_cases h : c = separator
    · simp [pieces, h]
    · simp only [pieces, h, if_false]
      split <;> simp

end Text

/-- The segments of a path. -/
def splitAtDots (path : String) : List String :=
  (Text.pieces '.' path.toList).map String.ofList

namespace Json

/-- The index that a segment denotes in a list: a word of 64 bits in decimal digits. -/
def index? (segment : String) : Option Nat :=
  (Numeric.readNat? segment.toList).filter (· < UInt64.size)

/-- The part of a document that a segment selects. -/
def child? (value : Json) (segment : String) : Option Json :=
  match value with
  | .obj fields => Assoc.find? segment fields
  | .arr items => (index? segment).bind fun i => items[i]?
  | _ => none

/-- The part of a document at the end of a row of segments. -/
def walk? (value : Json) : List String → Option Json
  | [] => some value
  | segment :: rest =>
    match value.child? segment with
    | some next => next.walk? rest
    | none => none

/-- The part of a document at a dotted path; the empty path is the whole. -/
def lookup (value : Json) (path : String) : Option Json :=
  if path = "" then some value else value.walk? (splitAtDots path)

/-- Whether a document counts as true. -/
def truthy : Json → Bool
  | .null => false
  | .bool b => b
  | .num n => n.toFloat != 0
  | .str s => s != ""
  | .arr items => !items.isEmpty
  | .obj _ => true

/-- The number that a document counts as. -/
def toNumber? : Json → Option Float
  | .num n => some n.toFloat
  | .str s => Numeric.readFloat? (Text.trim s.toList)
  | .bool b => some (if b then 1 else 0)
  | .null => some 0
  | _ => none

end Json
end EntityRules
