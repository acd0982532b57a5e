/-!
# Words of bits

**Input.**  A word of 64 bits.

**Algorithm.**  The one bits are taken off from the lowest up: the zeros below the lowest one
give its place, and an `and` of the word with its predecessor clears it.  A word is zero after as
many rounds as it has ones.

**Results.**  `Word.ones` lists the places of the one bits.
-/

namespace EntityRules

/-- The bits of a word. -/
def wordBits : Nat := 64

/-- A word of bits. -/
abbrev Word := BitVec wordBits

namespace Word

/-- The zeros below the lowest one, which are all the bits of a word without a one. -/
def trailingZeros (w : Word) : Nat := (List.range wordBits).findIdx w.getLsbD

/-- The word without its lowest one. -/
def clearLowest (w : Word) : Word := w &&& (w - 1)

/-- The places of the ones that a number of rounds takes off. -/
def onesWithin : Nat → Word → List Nat
  | 0, _ => []
  | rounds + 1, w =>
    if w = 0 then [] else w.trailingZeros :: onesWithin rounds w.clearLowest

/-- The places of the ones. -/
def ones (w : Word) : List Nat := onesWithin wordBits w

end Word
end EntityRules
