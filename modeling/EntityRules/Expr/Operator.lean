import EntityRules.Expr.Equality
import EntityRules.Json.Text

/-!
# Operators of expressions

**Input.**  An evaluator, the arguments of the call, not yet evaluated, and the data in scope.

**Algorithm.**  An operator can evaluate whatever document it likes under whatever data it likes,
and can see which operators there are.  The operators below evaluate their arguments: they leave
some out, or evaluate them repeatedly or under other data.  A missing argument is the literal null.
The operators of collections take the list through `resolve`, where a plain look-up needs no
operator table, and run their second argument with each item as the data.

**Results.**  `Operators.standard` is the table of all operators below under their usual names.
-/

namespace EntityRules
namespace Expr

/-! ## Errors -/

/-- How many arguments an operator wants. -/
inductive Arity where
  | two
  | oneOrTwo
  | twoOrThree
deriving DecidableEq

/-- Why an expression has no value. -/
inductive EvalError where
  | unknownOperator (name : String)
  | arity (operator : String) (expected : Arity)
  | notANumber (operator : String) (value : Json)
  | notAPath (value : Json)
  | divisionByZero

/-- The outcome of an evaluation. -/
abbrev Result := Except EvalError Json

/-- The number of arguments in words. -/
def Arity.words : Arity → String
  | .two => "two arguments"
  | .oneOrTwo => "one or two arguments"
  | .twoOrThree => "two or three arguments"

/-- The wording of an error. -/
def EvalError.message : EvalError → String
  | .unknownOperator name => "unknown operator '" ++ name ++ "'"
  | .arity operator expected => "'" ++ operator ++ "' expects " ++ expected.words
  | .notANumber operator value => "'" ++ operator ++ "': expected a number, got " ++ value.text
  | .notAPath value => "'var': path must be a string, got " ++ value.text
  | .divisionByZero => "division by zero"

/-! ## Evaluators -/

/-- What an operator evaluates with: the names of the operators that are there, and the value of
any expression under any data. -/
structure Evaluator where
  names : List String
  evaluate : Json → Json → Result

/-- An operator. -/
abbrev Operator := Evaluator → List Json → Json → Result

/-- The argument at a position. -/
def argument (args : List Json) (i : Nat) : Json := args.getD i .null

/-- The path of a plain look-up: the argument of `var` is one text, alone or in a list. -/
def plainPath? : Json → Option String
  | .obj [("var", .str path)] => some path
  | .obj [("var", .arr [.str path])] => some path
  | _ => none

/-- A value, and whether it is a part of the data rather than a result. -/
structure Resolved where
  value : Json
  inData : Bool

/-- The part of the data at a path, or null. -/
def resolvePath (data : Json) (path : String) : Resolved :=
  match data.lookup path with
  | some value => ⟨value, true⟩
  | none => ⟨.null, false⟩

namespace Evaluator

/-- The value of an expression in the position of a collection. -/
def resolve (e : Evaluator) (expr data : Json) : Except EvalError Resolved :=
  match plainPath? expr with
  | some path => .ok (resolvePath data path)
  | none => (e.evaluate expr data).map fun value => ⟨value, false⟩

/-- The values of all arguments, from left to right, unless one fails. -/
def evaluateAll (e : Evaluator) (args : List Json) (data : Json) : Except EvalError (List Json) :=
  args.mapM fun arg => e.evaluate arg data

/-- The values of exactly two arguments. -/
def evaluatePair (e : Evaluator) (operator : String) (args : List Json) (data : Json) :
    Except EvalError (Json × Json) :=
  match args with
  | [a, b] => do
    let x ← e.evaluate a data
    let y ← e.evaluate b data
    pure (x, y)
  | _ => .error (.arity operator .two)

end Evaluator

/-! ## Values -/

/-- The number that a value counts as. -/
def numeric (operator : String) (value : Json) : Except EvalError Float :=
  match value.toNumber? with
  | some x => .ok x
  | none => .error (.notANumber operator value)

/-- The numbers that values count as, unless one is none. -/
def numerics (operator : String) (values : List Json) : Except EvalError (List Float) :=
  values.mapM (numeric operator)

/-- A value inside a text: texts as they are, null as nothing. -/
def stringify : Json → String
  | .str s => s
  | .null => ""
  | value => value.text

/-- The items of a collection; all but a list have none. -/
def itemsOf : Json → List Json
  | .arr items => items
  | _ => []

namespace Operator

/-! ## Data -/

/-- The part of the data at a path; a second argument stands in for null or nothing. -/
def var : Operator := fun e args data => do
  let path ← e.evaluate (argument args 0) data
  let found ← match path with
    | .null => pure (some data)
    | .str p => pure (data.lookup p)
    | .num n => pure (data.lookup (Json.numberText n))
    | other => .error (.notAPath other)
  match found, args with
  | none, _ :: default :: _ => e.evaluate default data
  | some .null, _ :: default :: _ => e.evaluate default data
  | some value, _ => pure value
  | none, _ => pure .null

/-- The paths, of those given, at which the data hold nothing or null. -/
def missing : Operator := fun e args data => do
  let values ← e.evaluateAll args data
  let keys := match values with
    | [.arr inner] => inner
    | _ => values
  pure <| .arr <| keys.filter fun key =>
    let path := match key with
      | .str s => s
      | other => other.text
    match data.lookup path with
    | none => true
    | some value => value.isNull

/-! ## Logic -/

/-- The argument after the first true one in odd position; a last odd argument is the default. -/
def branch (e : Evaluator) : List Json → Json → Result
  | [], _ => .ok .null
  | [otherwise], data => e.evaluate otherwise data
  | condition :: consequence :: rest, data => do
    if (← e.evaluate condition data).truthy then e.evaluate consequence data
    else branch e rest data

/-- Evaluates arguments while `go` accepts their values; the last value evaluated. -/
def chain (e : Evaluator) (go : Json → Bool) : List Json → Json → Json → Result
  | [], last, _ => .ok last
  | arg :: rest, _, data => do
    let value ← e.evaluate arg data
    if go value then chain e go rest value data else pure value

/-- The first untrue value, else the last. -/
def conjunction : Operator := fun e args data => chain e Json.truthy args .null data

/-- The first true value, else the last. -/
def disjunction : Operator := fun e args data => chain e (!·.truthy) args .null data

/-- Whether the argument is true. -/
def truth : Operator := fun e args data => do
  pure (.bool (← e.evaluate (argument args 0) data).truthy)

/-- Whether the argument is untrue. -/
def negation : Operator := fun e args data => do
  pure (.bool !(← e.evaluate (argument args 0) data).truthy)

/-! ## Comparison -/

/-- Tests two values. -/
def test (name : String) (relation : Json → Json → Bool) : Operator := fun e args data => do
  let (a, b) ← e.evaluatePair name args data
  pure (.bool (relation a b))

/-- Whether every value stands in order to the next. -/
def ascends (accept : Ordering → Bool) : List Json → Bool
  | a :: b :: rest => (a.order? b).any accept && ascends accept (b :: rest)
  | _ => true

/-- Tests whether two values, or three in a row where `between` allows it, are in order. -/
def comparison (name : String) (accept : Ordering → Bool) (between : Bool) : Operator :=
  fun e args data =>
    if args.length = 2 ∨ (between ∧ args.length = 3) then do
      let values ← e.evaluateAll args data
      pure (.bool (ascends accept values))
    else .error (.arity name (if between then .twoOrThree else .two))

/-! ## Arithmetic -/

/-- The sum of all arguments. -/
def sum : Operator := fun e args data => do
  let values ← e.evaluateAll args data
  let numbers ← numerics "+" values
  pure (.number (numbers.foldl (· + ·) 0))

/-- The product of all arguments. -/
def product : Operator := fun e args data => do
  let values ← e.evaluateAll args data
  let numbers ← numerics "*" values
  pure (.number (numbers.foldl (· * ·) 1))

/-- The difference of two arguments, or the opposite of one. -/
def difference : Operator := fun e args data => do
  match ← e.evaluateAll args data with
  | [a] =>
    let x ← numeric "-" a
    pure (.number (-x))
  | [a, b] =>
    let x ← numeric "-" a
    let y ← numeric "-" b
    pure (.number (x - y))
  | _ => .error (.arity "-" .oneOrTwo)

/-- A division, whose divisor must not be zero. -/
def division (name : String) (divide : Float → Float → Float) : Operator := fun e args data => do
  let (a, b) ← e.evaluatePair name args data
  let divisor ← numeric name b
  if divisor == 0 then .error .divisionByZero
  else
    let dividend ← numeric name a
    pure (.number (divide dividend divisor))

/-- The number that wins against all others; null where there is none. -/
def extreme (name : String) (pick : Float → Float → Float) : Operator := fun e args data => do
  let values ← e.evaluateAll args data
  match ← numerics name values with
  | [] => pure .null
  | first :: rest => pure (.number (rest.foldl pick first))

/-! ## Texts and lists -/

/-- All arguments as one text. -/
def cat : Operator := fun e args data => do
  let values ← e.evaluateAll args data
  pure (.str (String.join (values.map stringify)))

/-- The first position of a part: from the end if negative, never outside `0` to `length`. -/
def startPosition (length start : Int) : Int :=
  if start < 0 then max (length + start) 0 else min start length

/-- The position after a part: counted from the end of the text for a negative count, from the
start of the part otherwise, never outside `start` to `length`. -/
def endPosition (length start : Int) (count : Option Float) : Int :=
  match count with
  | none => length
  | some n =>
    let origin := if n < 0 then length else start
    max start (min (Numeric.clampInt64 (origin + Numeric.toInt64 n)) length)

/-- A part of a text by its start and, optionally, its length in characters. -/
def substr : Operator := fun e args data => do
  let values ← e.evaluateAll args data
  let text := (stringify (values.getD 0 .null)).toList
  let length : Int := text.length
  let start := startPosition length
    (Numeric.toInt64 (((values.getD 1 .null).toNumber?).getD 0))
  let stop := endPosition length start (values[2]?.bind Json.toNumber?)
  pure (.str (String.ofList ((text.drop start.toNat).take (stop - start).toNat)))

/-- Whether a text occurs within another. -/
def occursIn (part : List Char) : List Char → Bool
  | [] => part.isEmpty
  | c :: rest => part.isPrefixOf (c :: rest) || occursIn part rest

/-- Whether the first value is an item of the second or a part of its text. -/
def member : Operator := fun e args data => do
  let (needle, haystack) ← e.evaluatePair "in" args data
  pure <| .bool <| match haystack with
    | .arr items => items.any fun item => item.strictlyEqual needle
    | .str s => occursIn (stringify needle).toList s.toList
    | _ => false

/-- One list of all values and of the items of those that are lists. -/
def merge : Operator := fun e args data => do
  let values ← e.evaluateAll args data
  pure <| .arr <| values.flatMap fun value =>
    match value with
    | .arr items => items
    | other => [other]

/-- The number of items; null has none, and what is no list counts as one. -/
def countItems : Operator := fun e args data => do
  pure <| match (← e.resolve (argument args 0) data).value with
    | .arr items => .ofNat items.length
    | .null => .ofNat 0
    | _ => .ofNat 1

/-! ## Iteration -/

/-- The items of the first argument. -/
def collection (e : Evaluator) (args : List Json) (data : Json) : Except EvalError (List Json) := do
  pure (itemsOf (← e.resolve (argument args 0) data).value)

/-- The values of the second argument, one per item. -/
def mapItems : Operator := fun e args data => do
  let items ← collection e args data
  pure (.arr (← items.mapM (e.evaluate (argument args 1))))

/-- The items for which a predicate is true. -/
def keep (predicate : Json → Result) : List Json → Except EvalError (List Json)
  | [] => .ok []
  | item :: rest => do
    let value ← predicate item
    let kept ← keep predicate rest
    pure (if value.truthy then item :: kept else kept)

/-- The items for which the second argument is true. -/
def filterItems : Operator := fun e args data => do
  let items ← collection e args data
  pure (.arr (← keep (e.evaluate (argument args 1)) items))

/-- Folds the second argument over the items, which see `current` and `accumulator`. -/
def reduceItems : Operator := fun e args data => do
  let items ← collection e args data
  let body := argument args 1
  let start ← e.evaluate (argument args 2) data
  items.foldlM
    (fun accumulator item =>
      e.evaluate body (.obj [("accumulator", accumulator), ("current", item)]))
    start

/-- Whether a predicate is true for every item. -/
def every (predicate : Json → Result) : List Json → Except EvalError Bool
  | [] => .ok true
  | item :: rest => do
    if (← predicate item).truthy then every predicate rest else pure false

/-- Whether a predicate is true for an item. -/
def exists? (predicate : Json → Result) : List Json → Except EvalError Bool
  | [] => .ok false
  | item :: rest => do
    if (← predicate item).truthy then pure true else exists? predicate rest

/-- Whether there are items and the second argument is true for each. -/
def holdsForAll : Operator := fun e args data => do
  let items ← collection e args data
  if items.isEmpty then pure (.bool false)
  else pure (.bool (← every (e.evaluate (argument args 1)) items))

/-- Whether the second argument is true for an item. -/
def holdsForSome : Operator := fun e args data => do
  let items ← collection e args data
  pure (.bool (← exists? (e.evaluate (argument args 1)) items))

/-- Whether the second argument is true for no item. -/
def holdsForNone : Operator := fun e args data => do
  let items ← collection e args data
  pure (.bool !(← exists? (e.evaluate (argument args 1)) items))

end Operator

/-! ## Tables -/

/-- Operators by name. -/
structure Operators where
  entries : List (String × Operator)

namespace Operators

/-- The table without operators. -/
def empty : Operators := ⟨[]⟩

/-- Puts an operator under a name, in place of one that was there. -/
def register (table : Operators) (name : String) (operator : Operator) : Operators :=
  ⟨Assoc.insert name operator table.entries⟩

/-- The operator under a name. -/
def find? (table : Operators) (name : String) : Option Operator :=
  Assoc.find? name table.entries

/-- All names, in order. -/
def names (table : Operators) : List String := table.entries.map (·.1)

/-- The standard operators with their names. -/
def standardEntries : List (String × Operator) :=
  [("var", Operator.var),
   ("missing", Operator.missing),
   ("if", Operator.branch),
   ("?:", Operator.branch),
   ("and", Operator.conjunction),
   ("or", Operator.disjunction),
   ("!", Operator.negation),
   ("!!", Operator.truth),
   ("==", Operator.test "==" Json.looselyEqual),
   ("!=", Operator.test "!=" fun a b => !a.looselyEqual b),
   ("===", Operator.test "===" Json.strictlyEqual),
   ("!==", Operator.test "!==" fun a b => !a.strictlyEqual b),
   ("<", Operator.comparison "<" Ordering.isLT true),
   ("<=", Operator.comparison "<=" Ordering.isLE true),
   (">", Operator.comparison ">" Ordering.isGT false),
   (">=", Operator.comparison ">=" Ordering.isGE false),
   ("+", Operator.sum),
   ("-", Operator.difference),
   ("*", Operator.product),
   ("/", Operator.division "/" (· / ·)),
   ("%", Operator.division "%" Numeric.remainder),
   ("min", Operator.extreme "min" Numeric.minimum),
   ("max", Operator.extreme "max" Numeric.maximum),
   ("cat", Operator.cat),
   ("substr", Operator.substr),
   ("in", Operator.member),
   ("merge", Operator.merge),
   ("count", Operator.countItems),
   ("map", Operator.mapItems),
   ("filter", Operator.filterItems),
   ("reduce", Operator.reduceItems),
   ("all", Operator.holdsForAll),
   ("some", Operator.holdsForSome),
   ("none", Operator.holdsForNone)]

/-- The table of the standard operators. -/
def standard : Operators := ⟨Assoc.ofList standardEntries⟩

end Operators
end Expr
end EntityRules
