import EntityRules.Entity.Component
import EntityRules.Entity.Pool

/-!
# The store of entities

**Input.**  The sizes of the global and the scene pool.

**Algorithm.**  An entity is the number of a slot.  The slots of the global pool come first.
A slot is active or free and carries components; all access to components goes through the
activity of the slot.  The revision counts the changes that can bear on which entities satisfy
a selector: activations, deactivations, and accesses for writing to a name or to tags, also
those that leave the value as it was.

**Results.**  Every operation is a function from a store to a store and an answer.
-/

namespace EntityRules

/-- A place for an entity. -/
structure Slot where
  active : Bool := false
  components : Components := .empty

instance : Inhabited Slot := ⟨{}⟩

/-- Why a store refuses. -/
inductive StoreError where
  | exhausted (pool : PoolKind)
  | inactive (e : Nat)
  | outOfRange (e : Nat)
deriving DecidableEq, Repr

/-- The wording of a refusal. -/
def StoreError.message : StoreError → String
  | .exhausted pool => pool.name ++ " entity pool exhausted"
  | .inactive e => "entity " ++ toString e ++ " is not active"
  | .outOfRange e => "entity index " ++ toString e ++ " is out of range"

/-- Entities with their components. -/
structure Store where
  global : Pool
  scene : Pool
  slots : Array Slot
  revision : Nat

namespace Store

/-- A store with all slots free.  The number of all slots is meant to be a word of 32 bits; as long
as it is one, the sum of the sizes is their sum in words. -/
def new (global scene : UInt32) : Store where
  global := .ofRange 0 global.toNat
  scene := .ofRange global.toNat (global.toNat + scene.toNat)
  slots := Array.replicate (global.toNat + scene.toNat) {}
  revision := 0

/-- The number of slots. -/
def capacity (s : Store) : Nat := s.slots.size

/-- A pool. -/
def pool (s : Store) : PoolKind → Pool
  | .global => s.global
  | .scene => s.scene

/-- Replaces a pool. -/
def setPool (s : Store) : PoolKind → Pool → Store
  | .global, p => { s with global := p }
  | .scene, p => { s with scene := p }

/-- A slot; beyond the last one a free slot without components. -/
def slot (s : Store) (e : Nat) : Slot := s.slots[e]?.getD {}

/-- Replaces a slot. -/
def setSlot (s : Store) (e : Nat) (slot : Slot) : Store :=
  { s with slots := s.slots.setIfInBounds e slot }

/-- Notes a change that bears on selectors. -/
def bump (s : Store) : Store := { s with revision := s.revision + 1 }

/-- Notes a change of a component, if it bears on selectors. -/
def bumpFor (s : Store) (c : Component) : Store := if c.affectsSelection then s.bump else s

/-! ## Activity -/

/-- Whether a slot is active. -/
def isActive (s : Store) (e : Nat) : Bool := (s.slot e).active

/-- The pool to which a slot belongs. -/
def home (s : Store) (e : Nat) : PoolKind := if s.global.owns e then .global else .scene

/-- Activates the lowest free slot of a pool. -/
def activate (s : Store) (kind : PoolKind) : Store × Except StoreError Nat :=
  match (s.pool kind).allocate with
  | (_, none) => (s, .error (.exhausted kind))
  | (p, some e) =>
    (((s.setPool kind p).setSlot e { s.slot e with active := true }).bump, .ok e)

/-- Frees an active slot with all its components; also whether it was active. -/
def deactivate (s : Store) (e : Nat) : Store × Bool :=
  if s.isActive e then
    let kind := s.home e
    (((s.setSlot e {}).setPool kind ((s.pool kind).deallocate e).1).bump, true)
  else (s, false)

/-- Frees slots one after another; also how many of them were active. -/
def deactivateAll (s : Store) : List Nat → Store × Nat
  | [] => (s, 0)
  | e :: rest =>
    let (s, active) := s.deactivate e
    let (s, count) := s.deactivateAll rest
    (s, if active then count + 1 else count)

/-- The slots of the scene pool. -/
def sceneSlots (s : Store) : List Nat :=
  List.range' s.scene.start (s.scene.stop - s.scene.start)

/-- Frees all slots of the scene pool; also how many of them were active. -/
def resetScene (s : Store) : Store × Nat := s.deactivateAll s.sceneSlots

/-- The active slots in ascending order. -/
def actives (s : Store) : List Nat := (List.range s.capacity).filter s.isActive

/-- The number of active slots by the count of the pools. -/
def activeCount (s : Store) : UInt32 := s.global.activeCount + s.scene.activeCount

/-- The entity of a number, which must be that of an active slot. -/
def entity (s : Store) (e : Nat) : Except StoreError Nat :=
  if s.capacity ≤ e then .error (.outOfRange e)
  else if s.isActive e then .ok e
  else .error (.inactive e)

/-- The pool of an active slot. -/
def poolOf? (s : Store) (e : Nat) : Option PoolKind :=
  if s.isActive e then some (s.home e) else none

/-! ## Components -/

/-- A component of an active slot. -/
def get? (s : Store) (c : Component) (e : Nat) : Option c.Value :=
  if s.isActive e then (s.slot e).components.get c else none

/-- Whether an active slot has a component. -/
def has (s : Store) (c : Component) (e : Nat) : Bool := (s.get? c e).isSome

/-- The lowest active slot of a name. -/
def findByName? (s : Store) (name : String) : Option Nat :=
  s.actives.find? fun e => s.get? .name e == some name

/-- Replaces a component of a slot, active or not. -/
def put (s : Store) (c : Component) (e : Nat) (value : Option c.Value) : Store :=
  let slot := s.slot e
  s.setSlot e { slot with components := slot.components.set c value }

/-- Obtains a component of an active slot for writing. -/
def access (s : Store) (c : Component) (e : Nat) : Store × Option c.Value :=
  if s.isActive e then (s.bumpFor c, (s.slot e).components.get c) else (s, none)

/-- Changes a component of an active slot, if it is there; also an answer of the change. -/
def modify {ρ : Type} (s : Store) (c : Component) (e : Nat) (f : c.Value → c.Value × ρ) :
    Store × Option ρ :=
  match s.access c e with
  | (s, some value) =>
    let (value, answer) := f value
    (s.put c e (some value), some answer)
  | (s, none) => (s, none)

/-- Gives an active slot a component; also the value that was there. -/
def insert (s : Store) (c : Component) (e : Nat) (value : c.Value) :
    Store × Except StoreError (Option c.Value) :=
  if s.isActive e then
    ((s.bumpFor c).put c e (some value), .ok ((s.slot e).components.get c))
  else (s, .error (.inactive e))

/-- Takes a component from an active slot; also the value that was there. -/
def remove (s : Store) (c : Component) (e : Nat) : Store × Option c.Value :=
  match s.get? c e with
  | some value => ((s.put c e none).bumpFor c, some value)
  | none => (s, none)

/-- Obtains a component of an active slot for writing, after giving it an initial value if it
is not there. -/
def getOrInsert (s : Store) (c : Component) (e : Nat) (initial : c.Value) :
    Store × Except StoreError c.Value :=
  if s.isActive e then
    let s := if s.has c e then s else (s.insert c e initial).1
    match s.access c e with
    | (s, some value) => (s, .ok value)
    | (s, none) => (s, .error (.inactive e))
  else (s, .error (.inactive e))

end Store
end EntityRules
