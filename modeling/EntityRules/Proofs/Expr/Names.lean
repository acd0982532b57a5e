import EntityRules.Proofs.Expr.Confined

/-!
# The names that an expression calls

An expression calls operators by the keys of its objects with one member.  Data may hold objects
of the same shape, but an operator that evaluates nothing but its arguments never applies the
evaluator to them.  So with such operators the value of an expression depends on the entries of the
table under the names that the expression calls, and on no others, and its evaluation goes no deeper
than it is nested.  An operator that is not there is blamed under such a name only.

**Results.**
* `agree_evaluateWithin`: two tables and two depths, by recursion on the expression.
* `evaluate_call_of_confined`, `evaluate_list_of_confined`: the value of each form by the values of
  its parts.
* `evaluate_depends_on_names`: dependence and blame together.
* `dereference_runs_data`: an operator for which they fail.
-/

namespace EntityRules
namespace Expr

/-! ## Names -/

mutual

/-- The keys of the objects with one member anywhere within a document. -/
def calledNames : Json → List String
  | .obj [(name, single)] => name :: calledNames single
  | .obj fields => calledInFields fields
  | .arr items => calledInItems items
  | _ => []

/-- The same for the items of a list. -/
def calledInItems : List Json → List String
  | [] => []
  | item :: items => calledNames item ++ calledInItems items

/-- The same for the members of an object. -/
def calledInFields : List (String × Json) → List String
  | [] => []
  | (_, value) :: fields => calledNames value ++ calledInFields fields

end

/-! ## Expressions -/

section Expressions

variable {t u : Operators}

theorem calledInItems_eq (items : List Json) :
    calledInItems items = items.flatMap calledNames := by
  induction items with
  | nil => rfl
  | cons item items ih => rw [calledInItems, ih, List.flatMap_cons]

theorem mem_calledNames_list {items : List Json} {item : Json} (hitem : item ∈ items)
    {name : String} (h : name ∈ calledNames item) : name ∈ calledNames (.arr items) := by
  rw [calledNames, calledInItems_eq]
  exact List.mem_flatMap.mpr ⟨item, hitem, h⟩

theorem mem_calledNames_call (name : String) {argument item : Json}
    (hitem : item ∈ arguments argument) {other : String} (h : other ∈ calledNames item) :
    other ∈ calledNames (.obj [(name, argument)]) := by
  rw [calledNames]
  refine List.mem_cons_of_mem name ?_
  cases argument with
  | arr items => exact mem_calledNames_list hitem h
  | null | bool | num | str | obj =>
      obtain rfl := List.mem_singleton.mp hitem
      exact h

/-- A name that an expression calls and a table has not. -/
def IsMissing (table : Operators) (expr : Json) (name : String) : Prop :=
  name ∈ calledNames expr ∧ table.find? name = none

/-- Two tables that agree on the names that an expression calls give it one outcome, at any two
depths that take it in, and blame only names that it calls. -/
theorem agree_evaluateWithin (ht : t.Confined) {expr : Json}
    (hagree : ∀ name ∈ calledNames expr, t.find? name = u.find? name) {m n : Nat}
    (hm : depth expr ≤ m) (hn : depth expr ≤ n) (data : Json) :
    Agree (IsMissing t expr) (evaluateWithin t m expr data) (evaluateWithin u n expr data) := by
  induction expr using expr_induction generalizing m n data with
  | literal expr hliteral =>
      rw [evaluateWithin_literal t hliteral, evaluateWithin_literal u hliteral]
      exact agree_ok expr
  | list items ih =>
      rw [depth_list] at hm hn
      obtain ⟨m, rfl⟩ := Nat.exists_eq_add_of_lt hm
      obtain ⟨n, rfl⟩ := Nat.exists_eq_add_of_lt hn
      rw [evaluateWithin_list, evaluateWithin_list]
      refine agree_map (agree_mapM fun item hitem => ?_) Json.arr
      have hdepth := depth_le_of_mem hitem
      refine (ih item hitem (fun name hname => ?_) (by omega) (by omega) data).mono ?_
      · exact hagree name (mem_calledNames_list hitem hname)
      · exact fun name hname => ⟨mem_calledNames_list hitem hname.1, hname.2⟩
  | call name argument ih =>
      rw [depth_call] at hm hn
      obtain ⟨m, rfl⟩ := Nat.exists_eq_add_of_lt hm
      obtain ⟨n, rfl⟩ := Nat.exists_eq_add_of_lt hn
      have hown : name ∈ calledNames (.obj [(name, argument)]) := by simp [calledNames]
      rw [evaluateWithin_call, evaluateWithin_call, apply, apply, ← hagree name hown]
      cases hfind : t.find? name with
      | none =>
          refine ⟨rfl, fun other herror => ?_⟩
          cases herror
          exact ⟨hown, hfind⟩
      | some operator =>
          refine ht name operator hfind _ _ _ _ (.of_args ?_ ?_ fun arg harg data => ?_) data
          · exact evaluateWithin_literal t isLiteral_null _
          · exact evaluateWithin_literal u isLiteral_null _
          · have hdepth := depth_le_of_mem harg
            refine (ih arg harg (fun other hother => ?_) (by omega) (by omega) data).mono ?_
            · exact hagree other (mem_calledNames_call name harg hother)
            · exact fun other hother => ⟨mem_calledNames_call name harg hother.1, hother.2⟩

/-- A depth that takes in an expression is as good as any. -/
theorem evaluateWithin_eq_evaluate (ht : t.Confined) {expr : Json} {n : Nat}
    (hn : depth expr ≤ n) (data : Json) :
    evaluateWithin t n expr data = evaluate t expr data :=
  (agree_evaluateWithin ht (fun _ _ => rfl) hn (Nat.le_add_left _ _) data).1

/-- An operator that evaluates its arguments only is called with the evaluator of its table. -/
theorem evaluate_call_of_confined (ht : t.Confined) (name : String) (argument data : Json) :
    evaluate t (.obj [(name, argument)]) data =
      apply t name (evaluator t) (arguments argument) data := by
  rw [evaluate_call, apply, apply]
  cases hfind : t.find? name with
  | none => rfl
  | some operator =>
      refine (ht name operator hfind (fun _ => True) _ _ _ (.of_args ?_ ?_ ?_) data).1
      · exact evaluateWithin_literal t isLiteral_null _
      · exact evaluate_literal t isLiteral_null
      · intro arg harg data
        have hdepth := depth_le_of_mem harg
        exact ⟨evaluateWithin_eq_evaluate ht (by omega) data, fun _ _ => trivial⟩

theorem evaluate_binaryCall (ht : t.Confined) {name : String} {operator : Operator}
    (h : t.find? name = some operator) (first second data : Json) :
    evaluate t (binaryCall name first second) data =
      operator (evaluator t) [first, second] data := by
  rw [binaryCall, evaluate_call_of_confined ht, apply, h]
  rfl

theorem evaluate_standardCall {name : String} {operator : Operator}
    (h : Operators.standard.find? name = some operator) (first second data : Json) :
    evaluate .standard (binaryCall name first second) data =
      operator (evaluator .standard) [first, second] data :=
  evaluate_binaryCall Operators.confined_standard h first second data

/-- **Dependence on names.**  Let the operators of a table be standard ones, under any names.  Under
another table that agrees with it on the names that an expression calls, the expression has the
same outcome, whatever the data.  If an operator is not there, the error names one that the
expression itself calls and that the table has not. -/
theorem evaluate_depends_on_names (t u : Operators) (ht : t.OfStandard) (expr data : Json) :
    ((∀ name ∈ calledNames expr, t.find? name = u.find? name) →
      evaluate t expr data = evaluate u expr data) ∧
    ∀ name, evaluate t expr data = .error (.unknownOperator name) →
      name ∈ calledNames expr ∧ t.find? name = none :=
  have hlimit : depth expr ≤ stackLimit + depth expr := Nat.le_add_left _ _
  ⟨fun hagree => (agree_evaluateWithin ht.confined hagree hlimit hlimit data).1,
    (agree_evaluateWithin ht.confined (fun _ _ => rfl) hlimit hlimit data).2⟩

/-- Two standard operators under names of their own. -/
def eachAndGet : Operators := ⟨[("each", Operator.mapItems), ("get", Operator.var)]⟩

/-- Calls to both. -/
def everyItem : Json :=
  .obj [("each", .arr [.obj [("get", .str "items")], .obj [("get", .str "")]])]

/-- A call, for each item, of an operator that is not there. -/
def everyItemAdded : Json :=
  .obj [("each", .arr [.obj [("get", .str "items")], .obj [("add", .obj [("get", .str "")])]])]

/-- Data that would call another operator. -/
def callInData : Json := .obj [("items", .arr [.obj [("sum", .arr [.bool true])]])]

theorem evaluate_depends_on_names_callInData :
    eachAndGet.OfStandard ∧
    evaluate (eachAndGet.register "sum" Operator.sum) everyItem callInData =
      .ok (.arr [.obj [("sum", .arr [.bool true])]]) ∧
    evaluate eachAndGet everyItemAdded callInData = .error (.unknownOperator "add") ∧
    "add" ∈ calledNames everyItemAdded := by
  have hstandard : eachAndGet.OfStandard := by
    intro name operator h
    simp only [eachAndGet, Operators.find?, Assoc.find?] at h
    split at h
    · exact ⟨("map", Operator.mapItems), by simp [Operators.standardEntries], Option.some.inj h⟩
    · split at h
      · exact ⟨("var", Operator.var), by simp [Operators.standardEntries], Option.some.inj h⟩
      · cases h
  have hagree : ∀ name ∈ calledNames everyItem,
      eachAndGet.find? name = (eachAndGet.register "sum" Operator.sum).find? name := by
    intro name hname
    have hnames : calledNames everyItem = ["each", "get", "get"] := rfl
    have hne : name ≠ "sum" := by
      rintro rfl
      rw [hnames] at hname
      exact absurd hname (by decide)
    exact (Assoc.find?_insert_of_ne hne Operator.sum eachAndGet.entries).symm
  have herror : evaluate eachAndGet everyItemAdded callInData = .error (.unknownOperator "add") :=
    rfl
  refine ⟨hstandard, ?_, herror,
    ((evaluate_depends_on_names eachAndGet .empty hstandard everyItemAdded callInData).2 _
      herror).1⟩
  rw [← (evaluate_depends_on_names eachAndGet _ hstandard everyItem callInData).1 hagree]
  rfl

/-- An operator that takes what its argument is worth for an expression. -/
def dereference : Operator := fun e args data => do
  let found ← e.evaluate (argument args 0) data
  e.evaluate found data

/-- With an operator that evaluates what it finds, data call operators and are blamed for them: the
tables agree on all names that the expression calls. -/
theorem dereference_runs_data :
    let table : Operators := ⟨[("deref", dereference), ("var", Operator.var)]⟩
    let expr : Json := .obj [("deref", .obj [("var", .str "found")])]
    let data : Json := .obj [("found", .obj [("!!", .str "x")])]
    (∀ name ∈ calledNames expr,
      table.find? name = (table.register "!!" Operator.truth).find? name) ∧
    evaluate table expr data = .error (.unknownOperator "!!") ∧
    evaluate (table.register "!!" Operator.truth) expr data = .ok (.bool true) := by
  intro table expr data
  have hnames : calledNames expr = ["deref", "var"] := rfl
  refine ⟨fun name hname => ?_, rfl, rfl⟩
  have hne : name ≠ "!!" := by
    rintro rfl
    rw [hnames] at hname
    exact absurd hname (by decide)
  exact (Assoc.find?_insert_of_ne hne Operator.truth table.entries).symm

end Expressions

end Expr
end EntityRules
