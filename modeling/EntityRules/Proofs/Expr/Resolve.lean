import EntityRules.Proofs.Expr.Forms

/-!
# Resolution against evaluation

Resolution takes a plain look-up, `{"var": path}`, without asking the table of operators.  Whatever
the table, it finds the part of the data at the path, or null; evaluation applies whatever
operator the table has under the name `var`.  All other expressions are evaluated.

**Results.**
* `resolve_plain`, `evaluate_plain`: the two on a plain look-up.
* `resolve_eq_evaluate_iff`: for which tables the two agree on all expressions.
* `resolve_ignores_table`: a table for which they do not.
-/

namespace EntityRules
namespace Expr

/-! ## Tables -/

namespace Operators

variable {table : Operators} {name : String} {operator : Operator}

/-- Puts operators under names, one after another. -/
def registerAll (table : Operators) (registrations : List (String × Operator)) : Operators :=
  registrations.foldl (fun table entry => table.register entry.1 entry.2) table

/-- The operator under `var` takes the part of the data at a path that is given as a text. -/
def LooksUp (table : Operators) : Prop :=
  ∃ operator, table.find? "var" = some operator ∧ ∀ path data,
    operator (evaluatorFor table [.str path]) [.str path] data =
      .ok ((data.lookup path).getD .null)

theorem find?_register_self (table : Operators) (name : String) (operator : Operator) :
    (table.register name operator).find? name = some operator :=
  Assoc.find?_insert_self name operator table.entries

theorem find?_register_of_ne {other : String} (h : name ≠ other) (table : Operators)
    (operator : Operator) : (table.register other operator).find? name = table.find? name :=
  Assoc.find?_insert_of_ne h operator table.entries

/-- Registrations that leave what is under a name keep it there. -/
theorem find?_registerAll (h : table.find? name = some operator)
    {registrations : List (String × Operator)}
    (hkept : ∀ entry ∈ registrations, entry.1 = name → entry.2 = operator) :
    (table.registerAll registrations).find? name = some operator := by
  induction registrations generalizing table with
  | nil => exact h
  | cons entry registrations ih =>
      obtain ⟨hentry, hrest⟩ := List.forall_mem_cons.mp hkept
      refine ih ?_ hrest
      by_cases hname : entry.1 = name
      · rw [← hname, find?_register_self, hentry hname]
      · rw [find?_register_of_ne (Ne.symm hname), h]

/-- The standard `var` takes the part of the data, since it has no second argument. -/
theorem looksUp_of_var (h : table.find? "var" = some Operator.var) : table.LooksUp := by
  refine ⟨Operator.var, h, fun path data => ?_⟩
  have hpath : (evaluatorFor table [.str path]).evaluate (argument [.str path] 0) data =
      .ok (.str path) := evaluateWithin_literal table (isLiteral_str path) _ data
  simp only [Operator.var, hpath]
  cases hfound : data.lookup path with
  | none => simp [bind, Except.bind, pure, Except.pure, hfound]
  | some value => cases value <;> simp [bind, Except.bind, pure, Except.pure, hfound]

theorem find?_standard_var : standard.find? "var" = some Operator.var := by
  rfl

end Operators

/-! ## Plain look-ups -/

variable {table : Operators} {expr : Json} {path : String}

theorem plainPath?_cases (h : plainPath? expr = some path) :
    expr = .obj [("var", .str path)] ∨ expr = .obj [("var", .arr [.str path])] := by
  unfold plainPath? at h
  split at h
  · exact Or.inl (by rw [Option.some.inj h])
  · exact Or.inr (by rw [Option.some.inj h])
  · cases h

/-- A plain look-up is resolved to the part of the data at its path. -/
theorem resolve_plain (table : Operators) (h : plainPath? expr = some path) (data : Json) :
    (resolve table expr data).map Resolved.value = .ok ((data.lookup path).getD .null) := by
  rw [resolve, Evaluator.resolve, h]
  simp only [resolvePath]
  cases data.lookup path <;> rfl

/-- A plain look-up is evaluated by the operator under `var`. -/
theorem evaluate_plain (table : Operators) (h : plainPath? expr = some path) (data : Json) :
    evaluate table expr data =
      apply table "var" (evaluatorFor table [.str path]) [.str path] data := by
  rcases plainPath?_cases h with rfl | rfl
  · exact evaluate_call table "var" (.str path) data
  · exact evaluate_call table "var" (.arr [.str path]) data

theorem resolve_of_not_plain (table : Operators) (h : plainPath? expr = none) (data : Json) :
    (resolve table expr data).map Resolved.value = evaluate table expr data := by
  simp only [resolve, Evaluator.resolve, h, evaluator]
  cases evaluate table expr data <;> rfl

/-- With an operator that looks up as usual, to resolve is to evaluate. -/
theorem resolve_eq_evaluate (h : table.LooksUp) (expr data : Json) :
    (resolve table expr data).map Resolved.value = evaluate table expr data := by
  obtain ⟨operator, hvar, hlookup⟩ := h
  cases hpath : plainPath? expr with
  | none => exact resolve_of_not_plain table hpath data
  | some path =>
      rw [resolve_plain table hpath, evaluate_plain table hpath, apply, hvar]
      exact (hlookup path data).symm

/-- **Resolution against evaluation.**  Whatever the table, the two agree on an expression that is
no plain look-up.  They agree on all expressions, in values and in errors, exactly if the table
has an operator under `var` that looks up as the standard one does; so they do for the standard
table after any registrations that leave `var` as it was. -/
theorem resolve_eq_evaluate_iff (table : Operators) :
    (∀ expr data, plainPath? expr = none →
      (resolve table expr data).map Resolved.value = evaluate table expr data) ∧
    ((∀ expr data, (resolve table expr data).map Resolved.value = evaluate table expr data) ↔
      table.LooksUp) ∧
    ∀ registrations, (∀ entry ∈ registrations, entry.1 = "var" → entry.2 = Operator.var) →
      (Operators.standard.registerAll registrations).LooksUp := by
  refine ⟨fun expr data h => resolve_of_not_plain table h data,
    ⟨fun h => ?_, resolve_eq_evaluate⟩, ?_⟩
  · have hplain (path : String) (data : Json) :
        apply table "var" (evaluatorFor table [.str path]) [.str path] data =
          .ok ((data.lookup path).getD .null) := by
      have hpath : plainPath? (.obj [("var", .str path)]) = some path := rfl
      rw [← evaluate_plain table hpath, ← h, resolve_plain table hpath]
    cases hvar : table.find? "var" with
    | none =>
        have hnone := hplain "" .null
        simp only [apply, hvar] at hnone
        cases hnone
    | some operator =>
        refine ⟨operator, hvar, fun path data => ?_⟩
        rw [← hplain path data, apply, hvar]
  · intro registrations hkept
    exact Operators.looksUp_of_var
      (Operators.find?_registerAll Operators.find?_standard_var hkept)

/-- An operator of a host. -/
def doubled : Operator := fun e args data => do
  let value ← e.evaluate (argument args 0) data
  pure (.number (value.toNumber?.getD 0 * 2))

/-- A look-up that finds a list. -/
def pathOfScores : Json := .obj [("var", .arr [.str "team.scores"])]

def teamData : Json := .obj [("team", .obj [("scores", .arr [.bool true, .null])])]

theorem resolve_eq_evaluate_iff_doubled :
    let table := Operators.standard.registerAll [("double", doubled)]
    table.LooksUp ∧
    evaluate table pathOfScores teamData = .ok (.arr [.bool true, .null]) ∧
    evaluate table (.obj [("quadruple", .null)]) teamData =
      (resolve table (.obj [("quadruple", .null)]) teamData).map Resolved.value := by
  intro table
  have hkept : ∀ entry ∈ [("double", doubled)], entry.1 = "var" → entry.2 = Operator.var := by
    simp
  have hlooks : table.LooksUp :=
    (resolve_eq_evaluate_iff table).2.2 [("double", doubled)] hkept
  have hagree := (resolve_eq_evaluate_iff table).2.1.mpr hlooks
  refine ⟨hlooks, ?_, (hagree _ _).symm⟩
  rw [← hagree]
  rfl

/-- Without any operator there is nothing to evaluate a look-up by, and yet it is resolved. -/
theorem resolve_ignores_table :
    let expr : Json := .obj [("var", .str "hp")]
    let data : Json := .obj [("hp", .ofNat 3)]
    (resolve .empty expr data).map Resolved.value = .ok (.ofNat 3) ∧
    evaluate .empty expr data = .error (.unknownOperator "var") :=
  ⟨rfl, rfl⟩

end Expr
end EntityRules
