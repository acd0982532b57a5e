/-!
# Tables of runs

**Input.**  A table of runs of numbers, each with its first and its last, in ascending order.

**Algorithm.**  The search halves the part of the table in question.

**Results.**  `inRanges` looks a number up.
-/

namespace EntityRules
namespace Text

/-- Halves the part of the table from `low` to `high` until it holds no more than one run that
can contain the code point. -/
def inRanges (table : Array (Nat × Nat)) (n : Nat) : Nat → Nat → Nat → Bool
  | 0, _, _ => false
  | steps + 1, low, high =>
    if low < high then
      let middle := (low + high) / 2
      match table[middle]? with
      | none => false
      | some (first, last) =>
        if n < first then inRanges table n steps low middle
        else if last < n then inRanges table n steps (middle + 1) high
        else true
    else false

end Text
end EntityRules
