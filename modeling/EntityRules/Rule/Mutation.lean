import EntityRules.Expr.Evaluate
import EntityRules.Rule.Command

/-!
# Operations on a context

**Input.**  Operations, and a context: an object with a document under `self`.

**Algorithm.**  The operations run in order, and each sees the changes of those before it.  The
value is evaluated under the whole context and then put into the document.  An operation that
fails is reported and changes nothing.

**Results.**  `Mutation.run` gives the context, the failures in order, and the number of
operations that applied.
-/

namespace EntityRules
namespace Mutation

/-- The key of the document in a context. -/
def selfKey : String := "self"

/-- The outcome of operations. -/
structure Outcome where
  context : Json
  failures : List Failure
  applied : Nat

/-- The context after one operation. -/
def step (table : Expr.Operators) (rule : String) (context : Json) (op : Operation) :
    Except Failure Json :=
  match op.target with
  | .error fault =>
    .error (.malformed ("target path in rule '" ++ rule ++ "'") fault.message)
  | .ok path =>
    match Expr.evaluate table op.value context with
    | .error e =>
      .error (.evaluation rule ("value for '" ++ path.text ++ "': " ++ e.message))
    | .ok value =>
      match context with
      | .obj fields =>
        match Assoc.find? selfKey fields with
        | none => .error (.conversion path.text "context has no document")
        | some document =>
          match path.assign document value with
          | .ok document => .ok (.obj (Assoc.insert selfKey document fields))
          | .error blocked => .error (.conversion path.text blocked.message)
      | _ => .error (.conversion path.text "context has no document")

/-- Runs operations one after another. -/
def run (table : Expr.Operators) (rule : String) : List Operation → Json → Outcome
  | [], context => ⟨context, [], 0⟩
  | op :: rest, context =>
    match step table rule context op with
    | .ok context =>
      let o := run table rule rest context
      { o with applied := o.applied + 1 }
    | .error e =>
      let o := run table rule rest context
      { o with failures := e :: o.failures }

end Mutation
end EntityRules
