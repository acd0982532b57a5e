import EntityRules.Expr.Evaluate

/-!
# Forms of expressions

An expression is a call, a list or a literal.  A call has a name and arguments, which are the items
of its member or else the member alone.

**Results.**
* `evaluateWithin_call`, `evaluateWithin_list`, `evaluateWithin_literal`: the value of each form
  down to a depth.
* `evaluate_call`, `evaluate_literal`: the same for an evaluation as deep as it goes.
* `expr_induction`: induction over the parts of an expression that may be evaluated.
-/

namespace EntityRules
namespace Expr

/-- An expression that stands for itself: neither a call nor a list. -/
def IsLiteral (expr : Json) : Prop :=
  (∀ name argument, expr ≠ .obj [(name, argument)]) ∧ ∀ items, expr ≠ .arr items

theorem isLiteral_null : IsLiteral .null := ⟨nofun, nofun⟩

theorem isLiteral_str (s : String) : IsLiteral (.str s) := ⟨nofun, nofun⟩

/-- The call of an operator with two arguments. -/
def binaryCall (name : String) (first second : Json) : Json := .obj [(name, .arr [first, second])]

/-- The evaluator that an operator is called with. -/
def evaluatorFor (table : Operators) (args : List Json) : Evaluator :=
  ⟨table.names, evaluateWithin table (stackLimit + depthOfItems args)⟩

section Depth

variable {item : Json} {items : List Json}

theorem depth_list (items : List Json) : depth (.arr items) = depthOfItems items + 1 := by
  rw [depth]

theorem depth_call (name : String) (argument : Json) :
    depth (.obj [(name, argument)]) = depthOfItems (arguments argument) + 1 := by
  cases argument with
  | arr items => rw [depth, arguments]
  | null | bool | num | str | obj => simp [depth, arguments, depthOfItems]

theorem depth_le_of_mem (h : item ∈ items) : depth item ≤ depthOfItems items := by
  induction items with
  | nil => cases h
  | cons first rest ih =>
      rw [depthOfItems]
      rcases List.mem_cons.mp h with rfl | hrest
      · exact Nat.le_max_left _ _
      · exact Nat.le_trans (ih hrest) (Nat.le_max_right _ _)

end Depth

section Values

variable (table : Operators)

theorem evaluateWithin_call (limit : Nat) (name : String) (argument data : Json) :
    evaluateWithin table (limit + 1) (.obj [(name, argument)]) data =
      apply table name ⟨table.names, evaluateWithin table limit⟩ (arguments argument) data := by
  rw [evaluateWithin]

theorem evaluateWithin_list (limit : Nat) (items : List Json) (data : Json) :
    evaluateWithin table (limit + 1) (.arr items) data =
      (items.mapM fun item => evaluateWithin table limit item data).map .arr := by
  rw [evaluateWithin]

theorem evaluateWithin_literal {expr : Json} (h : IsLiteral expr) (limit : Nat) (data : Json) :
    evaluateWithin table limit expr data = .ok expr := by
  rw [evaluateWithin]
  · exact fun depth name argument _ heq => h.1 name argument heq
  · exact fun depth items _ heq => h.2 items heq

/-- A call applies the operator of its name to its arguments. -/
theorem evaluate_call (name : String) (argument data : Json) :
    evaluate table (.obj [(name, argument)]) data =
      apply table name (evaluatorFor table (arguments argument)) (arguments argument) data := by
  rw [evaluate, depth_call, ← Nat.add_assoc, evaluateWithin_call, evaluatorFor]

theorem evaluate_literal {expr : Json} (h : IsLiteral expr) (data : Json) :
    evaluate table expr data = .ok expr :=
  evaluateWithin_literal table h _ data

end Values

section Induction

theorem sizeOf_lt_of_mem_list {items : List Json} {item : Json} (h : item ∈ items) :
    sizeOf item < sizeOf (Json.arr items) := by
  have hitem := List.sizeOf_lt_of_mem h
  rw [Json.arr.sizeOf_spec]
  omega

theorem sizeOf_lt_of_mem_arguments {name : String} {argument item : Json}
    (h : item ∈ arguments argument) : sizeOf item < sizeOf (Json.obj [(name, argument)]) := by
  have hargument : sizeOf item ≤ sizeOf argument := by
    cases argument with
    | arr items => exact Nat.le_of_lt (sizeOf_lt_of_mem_list h)
    | null | bool | num | str | obj =>
        obtain rfl := List.mem_singleton.mp h
        exact Nat.le_refl _
  simp only [Json.obj.sizeOf_spec, List.cons.sizeOf_spec, Prod.mk.sizeOf_spec]
  omega

/-- What holds of literals, of lists with their items and of calls with their arguments holds of
every expression. -/
theorem expr_induction {P : Json → Prop} (literal : ∀ expr, IsLiteral expr → P expr)
    (list : ∀ items, (∀ item ∈ items, P item) → P (.arr items))
    (call : ∀ name argument, (∀ item ∈ arguments argument, P item) →
      P (.obj [(name, argument)])) (expr : Json) : P expr := by
  match expr with
  | .obj [(name, argument)] =>
      exact call name argument fun item _ => expr_induction literal list call item
  | .arr items => exact list items fun item _ => expr_induction literal list call item
  | .obj [] | .obj (_ :: _ :: _) | .null | .bool _ | .num _ | .str _ =>
      exact literal _ ⟨by simp, by simp⟩
termination_by sizeOf expr
decreasing_by
  · exact sizeOf_lt_of_mem_arguments ‹_›
  · exact sizeOf_lt_of_mem_list ‹_›

end Induction

end Expr
end EntityRules
