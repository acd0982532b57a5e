import EntityRules.Expr.Operator

/-!
# Evaluation of expressions

**Input.**  A table of operators, an expression and the data in scope.  An expression is a
document: an object with exactly one member applies the operator of that name to the member's
value, or to its items if it is a list; a list is evaluated item by item; all else stands for
itself.

**Algorithm.**  A call hands its arguments to the operator together with the evaluator itself, which
the operator can apply to any document, so that evaluation need not end.  `evaluateWithin` follows
calls and lists down to a depth.  `evaluate` goes `stackLimit` levels deeper than the expression
is nested: more than can be on a stack at once.  Operators that evaluate nothing but their
arguments stay above it.

**Results.**  `resolve` is evaluation that takes the plain look-up `{"var": path}` directly.
-/

namespace EntityRules
namespace Expr

/-- The arguments of a call. -/
def arguments : Json → List Json
  | .arr items => items
  | single => [single]

/-- Applies the operator of a name. -/
def apply (table : Operators) (name : String) (e : Evaluator) (args : List Json) (data : Json) :
    Result :=
  match table.find? name with
  | none => .error (.unknownOperator name)
  | some operator => operator e args data

/-- The value of an expression by calls and lists within each other, as many as given.  What lies
deeper stands for itself. -/
def evaluateWithin (table : Operators) : Nat → Json → Json → Result
  | depth + 1, .obj [(name, argument)], data =>
    apply table name ⟨table.names, evaluateWithin table depth⟩ (arguments argument) data
  | depth + 1, .arr items, data =>
    (items.mapM fun item => evaluateWithin table depth item data).map .arr
  | _, literal, _ => .ok literal

mutual

/-- How many calls and lists of an expression are within each other. -/
def depth : Json → Nat
  | .obj [(_, .arr items)] => depthOfItems items + 1
  | .obj [(_, single)] => depth single + 1
  | .arr items => depthOfItems items + 1
  | _ => 0

/-- The same for a list of expressions. -/
def depthOfItems : List Json → Nat
  | [] => 0
  | item :: rest => max (depth item) (depthOfItems rest)

end

/-- The size of an address space.  A pending evaluation takes an address at least, so no more of
them are within each other. -/
def stackLimit : Nat := UInt64.size

/-- The value of an expression. -/
def evaluate (table : Operators) (expr data : Json) : Result :=
  evaluateWithin table (stackLimit + depth expr) expr data

/-- A table of operators as an evaluator. -/
def evaluator (table : Operators) : Evaluator := ⟨table.names, evaluate table⟩

/-- The value of an expression in the position of a collection. -/
def resolve (table : Operators) (expr data : Json) : Except EvalError Resolved :=
  (evaluator table).resolve expr data

end Expr
end EntityRules
