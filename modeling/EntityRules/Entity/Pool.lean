/-!
# Pools of slots

**Input.**  A range of slot numbers.

**Algorithm.**  A pool hands out the lowest free slot of its range and takes slots back.  The
free slots are a list in ascending order.  The pool counts the slots that are out; it does not
know which they are, so a slot that is given back twice is free twice.

**Results.**  `Pool.allocate` fails exactly when no slot is free.
-/

namespace EntityRules

/-- The two pools of a store. -/
inductive PoolKind where
  /-- Its entities outlive a scene. -/
  | global
  /-- Its entities end with the scene. -/
  | scene
deriving DecidableEq, Repr

/-- The name of a pool. -/
def PoolKind.name : PoolKind → String
  | .global => "global"
  | .scene => "scene"

/-- The slots from `start` to before `stop`, and those of them that are free. -/
structure Pool where
  start : Nat
  stop : Nat
  free : List Nat
  activeCount : UInt32

namespace Pool

/-- The pool of a range, with all slots free. -/
def ofRange (start stop : Nat) : Pool :=
  ⟨start, stop, List.range' start (stop - start), 0⟩

/-- Whether a slot is in the range. -/
def owns (p : Pool) (e : Nat) : Bool := p.start ≤ e && e < p.stop

/-- The number of slots. -/
def capacity (p : Pool) : Nat := p.stop - p.start

/-- Takes the lowest free slot. -/
def allocate (p : Pool) : Pool × Option Nat :=
  match p.free with
  | [] => (p, none)
  | e :: rest => ({ p with free := rest, activeCount := p.activeCount + 1 }, some e)

/-- Puts a slot into an ascending list. -/
def release (e : Nat) : List Nat → List Nat
  | [] => [e]
  | f :: rest => if e ≤ f then e :: f :: rest else f :: release e rest

/-- Gives a slot of the range back; also whether it is one. -/
def deallocate (p : Pool) (e : Nat) : Pool × Bool :=
  if p.owns e then
    ({ p with free := release e p.free, activeCount := p.activeCount - 1 }, true)
  else (p, false)

end Pool
end EntityRules
