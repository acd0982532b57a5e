/-!
# Diagnostics

**Input.**  Failures that concern a rule, an operation or a field and stop nothing else.

**Algorithm.**  The diagnostics keep the latest failures up to a limit, oldest first, and
count all of them by kind.

**Results.**  `snapshot` and `drain` give the failures kept; `count` and `total` are not
affected by a drain.
-/

namespace EntityRules

/-- The kinds of failures. -/
inductive FailureKind where
  | malformed
  | capacityExceeded
  | evaluation
  | conversion
  | staleReference
deriving DecidableEq, Repr

namespace FailureKind

/-- All kinds, in order. -/
def all : List FailureKind :=
  [malformed, capacityExceeded, evaluation, conversion, staleReference]

/-- The name of a kind. -/
def name : FailureKind → String
  | malformed => "syntax"
  | capacityExceeded => "capacity_exceeded"
  | evaluation => "evaluation"
  | conversion => "conversion"
  | staleReference => "stale_reference"

end FailureKind

/-- A failure that can be recovered from. -/
inductive Failure where
  /-- A selector, a command or a path of a target is not well formed. -/
  | malformed (context message : String)
  /-- There is no room for a further rule, selector or entity. -/
  | capacityExceeded (what : String) (max : Nat)
  /-- The filter of a rule fails or gives no list. -/
  | evaluation (rule message : String)
  /-- A field of a document has the wrong shape. -/
  | conversion (field message : String)
  /-- An entity is no longer active. -/
  | staleReference (e : Nat)
deriving DecidableEq, Repr

namespace Failure

/-- The kind of a failure. -/
def kind : Failure → FailureKind
  | .malformed _ _ => .malformed
  | .capacityExceeded _ _ => .capacityExceeded
  | .evaluation _ _ => .evaluation
  | .conversion _ _ => .conversion
  | .staleReference _ => .staleReference

/-- The wording of a failure. -/
def message : Failure → String
  | .malformed context message => "syntax error in " ++ context ++ ": " ++ message
  | .capacityExceeded what max => what ++ " capacity exceeded (max " ++ toString max ++ ")"
  | .evaluation rule message => "evaluation failed for rule '" ++ rule ++ "': " ++ message
  | .conversion field message => "cannot convert field '" ++ field ++ "': " ++ message
  | .staleReference e => "entity " ++ toString e ++ " is no longer active"

end Failure

/-- A number for each kind of failure. -/
structure FailureCounts where
  malformed : Nat := 0
  capacityExceeded : Nat := 0
  evaluation : Nat := 0
  conversion : Nat := 0
  staleReference : Nat := 0
deriving DecidableEq, Repr

namespace FailureCounts

/-- The number of a kind. -/
def get (c : FailureCounts) : FailureKind → Nat
  | .malformed => c.malformed
  | .capacityExceeded => c.capacityExceeded
  | .evaluation => c.evaluation
  | .conversion => c.conversion
  | .staleReference => c.staleReference

/-- Adds one to the number of a kind. -/
def bump (c : FailureCounts) : FailureKind → FailureCounts
  | .malformed => { c with malformed := c.malformed + 1 }
  | .capacityExceeded => { c with capacityExceeded := c.capacityExceeded + 1 }
  | .evaluation => { c with evaluation := c.evaluation + 1 }
  | .conversion => { c with conversion := c.conversion + 1 }
  | .staleReference => { c with staleReference := c.staleReference + 1 }

end FailureCounts

/-- The latest failures, up to a limit, and the number of all. -/
structure Diagnostics where
  limit : Nat := 256
  history : List Failure := []
  counts : FailureCounts := {}

namespace Diagnostics

/-- Diagnostics without failures that keep up to `limit`. -/
def new (limit : Nat) : Diagnostics := { limit }

/-- Appends a failure to the history, at whose limit the oldest one gives way. -/
def remember (d : Diagnostics) (e : Failure) : List Failure :=
  if d.limit = 0 then d.history
  else if d.history.length = d.limit then d.history.drop 1 ++ [e]
  else d.history ++ [e]

/-- Reports a failure. -/
def report (d : Diagnostics) (e : Failure) : Diagnostics :=
  { d with history := d.remember e, counts := d.counts.bump e.kind }

/-- Reports failures one after another. -/
def reportAll (d : Diagnostics) (errors : List Failure) : Diagnostics :=
  errors.foldl report d

/-- The number of failures of a kind so far. -/
def count (d : Diagnostics) (kind : FailureKind) : Nat := d.counts.get kind

/-- The number of failures so far. -/
def total (d : Diagnostics) : Nat := FailureKind.all.foldl (fun n kind => n + d.count kind) 0

/-- The failures kept, oldest first. -/
def snapshot (d : Diagnostics) : List Failure := d.history

/-- Takes the failures kept. -/
def drain (d : Diagnostics) : Diagnostics × List Failure :=
  ({ d with history := [] }, d.history)

/-- One line that says how many failures are kept and how many there were of each kind. -/
def summary (d : Diagnostics) : String :=
  "Diagnostics \x7b retained: " ++ toString d.history.length ++ ", counts: ["
    ++ ", ".intercalate (FailureKind.all.map fun kind => toString (d.count kind)) ++ "] \x7d"

end Diagnostics
end EntityRules
