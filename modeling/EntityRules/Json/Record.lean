import EntityRules.Json.Reader

/-!
# Records with known fields

**Input.**  A value as it is written, and the keys of a record in order.

**Algorithm.**  An object gives a field by its key, at most once; members with other keys are
passed over, whatever they hold.  A list gives the fields in order and must not be longer than
the record.

**Results.**  `Written.record?` gives the fields that are there.
-/

namespace EntityRules
namespace Written

/-- Collects the members with known keys after those found so far. -/
def knownMembers? (keys : List String) :
    List (List TextUnit × Written) → List (String × Written) → Option (List (String × Written))
  | [], found => some found
  | (units, value) :: rest, found =>
    match decode? units [] with
    | none => none
    | some key =>
      if key ∈ keys then
        if Assoc.contains key found then none
        else knownMembers? keys rest (Assoc.insert key value found)
      else knownMembers? keys rest found

/-- The fields of a record. -/
def record? (keys : List String) : Written → Option (List (String × Written))
  | .object members => knownMembers? keys members []
  | .array items => if items.length ≤ keys.length then some (keys.zip items) else none
  | _ => none

/-- A natural number below a bound. -/
def natBelow? (bound : Nat) : Written → Option Nat
  | .numeral n => ((number? n).bind Json.nat?).filter (· < bound)
  | _ => none

end Written
end EntityRules
