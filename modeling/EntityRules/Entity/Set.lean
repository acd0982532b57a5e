import EntityRules.Entity.Word

/-!
# Sets of entities

**Input.**  Entities by their slot numbers.

**Algorithm.**  A set holds the numbers below a bound of whole words of 64 bits.  The members
are the one bits of a natural number, and each word of it is gone through from its lowest one up.
The number of members is kept beside them: a single insertion or removal adjusts it and reports
whether it changed the set, and every other change counts the ones of each word anew.

**Results.**  `EntitySet.members` lists the members, `EntitySet.first?` gives the least one.
-/

namespace EntityRules

/-- A set of slot numbers below a bound. -/
structure EntitySet where
  words : Nat
  mask : Nat
  size : Nat
deriving DecidableEq, Repr

namespace EntitySet

/-- The empty set for numbers below a capacity, rounded up to whole words. -/
def withCapacity (capacity : Nat) : EntitySet :=
  ⟨(capacity + wordBits - 1) / wordBits, 0, 0⟩

/-- The bound of the members. -/
def bound (s : EntitySet) : Nat := wordBits * s.words

/-- Whether a number is a member. -/
def contains (s : EntitySet) (e : Nat) : Bool := decide (e < s.bound) && s.mask.testBit e

/-- A word of the bits. -/
def word (s : EntitySet) (i : Nat) : Word := BitVec.ofNat wordBits (s.mask >>> (wordBits * i))

/-- The members in a word. -/
def wordMembers (s : EntitySet) (i : Nat) : List Nat := (s.word i).ones.map (wordBits * i + ·)

/-- The members in ascending order. -/
def members (s : EntitySet) : List Nat := (List.range s.words).flatMap s.wordMembers

/-- The least member. -/
def first? (s : EntitySet) : Option Nat := s.members.head?

/-- Whether there is no member. -/
def isEmpty (s : EntitySet) : Bool := s.size == 0

/-- Counts the members anew. -/
def recount (s : EntitySet) : EntitySet :=
  { s with size := (List.range s.words).foldl (fun size i => size + (s.word i).cpop.toNat) 0 }

/-- Whether adding a number changes the set. -/
def admits (s : EntitySet) (e : Nat) : Bool := decide (e < s.bound) && !s.contains e

/-- Adds a number below the bound, and says whether it was added. -/
def add (s : EntitySet) (e : Nat) : EntitySet × Bool :=
  if s.admits e then ({ s with mask := s.mask ||| 1 <<< e, size := s.size + 1 }, true)
  else (s, false)

/-- Takes a number away, and says whether it was there. -/
def drop (s : EntitySet) (e : Nat) : EntitySet × Bool :=
  if s.contains e then ({ s with mask := s.mask ^^^ 1 <<< e, size := s.size - 1 }, true)
  else (s, false)

/-- The set with a number below the bound. -/
def insert (s : EntitySet) (e : Nat) : EntitySet := (s.add e).1

/-- The set without a number. -/
def erase (s : EntitySet) (e : Nat) : EntitySet := (s.drop e).1

/-- Takes all numbers away. -/
def clear (s : EntitySet) : EntitySet := { s with mask := 0, size := 0 }

/-- The bits below the bound of a set. -/
def fit (s : EntitySet) (mask : Nat) : Nat := mask % (1 <<< s.bound)

/-- Adds the members of another set that are below the bound. -/
def union (s t : EntitySet) : EntitySet :=
  recount { s with mask := s.mask ||| s.fit t.mask }

/-- Keeps the members that are in another set. -/
def intersect (s t : EntitySet) : EntitySet :=
  recount { s with mask := s.mask &&& t.mask }

/-- Takes over the members of another set that are below the bound. -/
def copyFrom (s t : EntitySet) : EntitySet :=
  recount { s with mask := s.fit t.mask }

/-- Keeps the members that pass a test. -/
def retain (s : EntitySet) (keep : Nat → Bool) : EntitySet :=
  let flip := fun mask e => if keep e then mask else mask ^^^ 1 <<< e
  recount { s with mask := s.members.foldl flip s.mask }

end EntitySet
end EntityRules
