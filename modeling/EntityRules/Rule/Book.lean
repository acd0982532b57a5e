import EntityRules.Rule.Definition
import EntityRules.Selector.Registry

/-!
# Active rules

**Input.**  Compiled rules, a registry of selectors.

**Algorithm.**  The rules are in two partitions of fixed capacity, each in the order of
activation; the global ones come before those of the scene.  An active rule holds a reference
to its selector.  Clearing a partition releases the selectors and begins a new generation, so
that a handle from before finds nothing.

**Results.**  `RuleBook.activate` changes nothing if it fails; `RuleBook.get?` and
`RuleBook.find?` are the two directions between handles and rules.
-/

namespace EntityRules

/-- The lifetimes of rules. -/
inductive Partition where
  /-- Its rules outlive a scene. -/
  | global
  /-- Its rules end with the scene. -/
  | scene
deriving DecidableEq, Repr

/-- The words for a rule of a partition. -/
def Partition.ruleName : Partition → String
  | .global => "global rule"
  | .scene => "scene rule"

/-- A reference to an active rule by its place among those of a partition, which is below the
capacity of the partition. -/
structure RuleHandle where
  partition : Partition
  generation : UInt32
  slot : Nat
deriving DecidableEq

/-- A rule and the slot of its selector. -/
structure ActiveRule where
  rule : Rule
  selector : Nat

/-- The rules of a partition. -/
structure Bucket where
  rules : List ActiveRule
  capacity : Nat
  generation : UInt32

namespace Bucket

/-- A partition without rules. -/
def new (capacity : Nat) : Bucket := ⟨[], capacity, 0⟩

/-- Whether there is no room for a further rule. -/
def isFull (b : Bucket) : Bool := b.capacity ≤ b.rules.length

/-- Adds a rule after the others. -/
def push (b : Bucket) (active : ActiveRule) : Bucket := { b with rules := b.rules ++ [active] }

/-- Takes all rules away and begins a new generation. -/
def clear (b : Bucket) : Bucket := { b with rules := [], generation := b.generation + 1 }

end Bucket

/-- Drops the references of rules to their selectors. -/
def Registry.releaseAll (r : Registry) (rules : List ActiveRule) : Registry :=
  rules.foldl (fun r active => r.release active.selector) r

/-- The active rules of both partitions. -/
structure RuleBook where
  global : Bucket
  scene : Bucket

namespace RuleBook

/-- No active rules. -/
def new (globalCapacity sceneCapacity : Nat) : RuleBook :=
  ⟨.new globalCapacity, .new sceneCapacity⟩

/-- The rules of a partition. -/
def bucket (b : RuleBook) : Partition → Bucket
  | .global => b.global
  | .scene => b.scene

/-- Replaces the rules of a partition. -/
def setBucket (b : RuleBook) : Partition → Bucket → RuleBook
  | .global, rules => { b with global := rules }
  | .scene, rules => { b with scene := rules }

/-- All active rules: the global ones, then those of the scene, each in order. -/
def toList (b : RuleBook) : List ActiveRule := b.global.rules ++ b.scene.rules

/-- The number of active rules. -/
def size (b : RuleBook) : Nat := b.global.rules.length + b.scene.rules.length

/-- Activates a rule and tracks its selector. -/
def activate (b : RuleBook) (partition : Partition) (rule : Rule) (r : Registry) :
    RuleBook × Registry × Except Failure RuleHandle :=
  let bucket := b.bucket partition
  if bucket.isFull then
    (b, r, .error (.capacityExceeded partition.ruleName bucket.capacity))
  else
    match r.track rule.source with
    | (r, .error e) => (b, r, .error e)
    | (r, .ok selector) =>
      (b.setBucket partition (bucket.push ⟨rule, selector⟩), r,
        .ok ⟨partition, bucket.generation, bucket.rules.length⟩)

/-- Activates a rule and reports a failure. -/
def tryActivate (b : RuleBook) (partition : Partition) (rule : Rule) (r : Registry)
    (d : Diagnostics) : RuleBook × Registry × Diagnostics × Option RuleHandle :=
  match b.activate partition rule r with
  | (b, r, .ok handle) => (b, r, d, some handle)
  | (b, r, .error e) => (b, r, d.report e, none)

/-- Clears a partition. -/
def clear (b : RuleBook) (partition : Partition) (r : Registry) : RuleBook × Registry :=
  let bucket := b.bucket partition
  (b.setBucket partition bucket.clear, r.releaseAll bucket.rules)

/-- Clears the partition of the scene. -/
def reset (b : RuleBook) (r : Registry) : RuleBook × Registry := b.clear .scene r

/-- Clears both partitions. -/
def clearAll (b : RuleBook) (r : Registry) : RuleBook × Registry :=
  let (b, r) := b.clear .scene r
  b.clear .global r

/-- The rule of a handle, unless its partition was cleared since. -/
def get? (b : RuleBook) (handle : RuleHandle) : Option ActiveRule :=
  let bucket := b.bucket handle.partition
  if bucket.generation = handle.generation then bucket.rules[handle.slot]? else none

/-- The handle of the first rule of a partition that equals a rule. -/
def find? (b : RuleBook) (partition : Partition) (rule : Rule) : Option RuleHandle :=
  let bucket := b.bucket partition
  (bucket.rules.findIdx? fun active => active.rule == rule).map fun slot =>
    ⟨partition, bucket.generation, slot⟩

end RuleBook
end EntityRules
