import EntityRules.Scene.File

/-!
# What is left of the definitions of a scene

A definition gives a rule if it decodes and compiles.  Each definition of a list is decoded and
compiled on its own, so a list of definitions falls into the rules of those that give one and one
error for each of the others, both in the order of the definitions.

**Results.**
* `compileAt_cases`: a definition gives a rule or an error.
* `compileFrom_eq`, `length_faults`: the rules and the errors of a list.
* `rules_compile`, `globalRules_compile`, `errors_compile`, `length_compile`: those of a scene.
-/

namespace EntityRules
namespace Scene

/-- The rule that a document gives, if it decodes and compiles. -/
def rule? (value : Json) : Option Rule :=
  (RuleDefinition.decode value).toOption.bind fun d => (Rule.compile d).toOption

/-- The error of a definition at a place, if it gives no rule. -/
def fault? (key : String) (i : Nat) (value : Json) : Option Failure :=
  match compileAt key i value with
  | .ok _ => none
  | .error e => some e

/-- The errors of a list of definitions from a place on. -/
def faults (key : String) (start : Nat) (values : List Json) : List Failure :=
  (values.zipIdx start).filterMap fun entry => fault? key entry.2 entry.1

variable {key : String} {i : Nat} {value : Json}

section Lists

/-- A definition gives a rule or an error, and its place has no bearing on which. -/
theorem compileAt_cases (key : String) (i : Nat) (value : Json) :
    (∃ rule, rule? value = some rule ∧ compileAt key i value = .ok rule) ∨
      (rule? value = none ∧ ∃ e, compileAt key i value = .error e) := by
  rw [compileAt, rule?]
  cases RuleDefinition.decode value with
  | error fault => exact Or.inr ⟨rfl, _, rfl⟩
  | ok d =>
      cases hcompile : Rule.compile d with
      | error e => exact Or.inr ⟨by simp [hcompile, Except.toOption], e, hcompile⟩
      | ok rule => exact Or.inl ⟨rule, by simp [hcompile, Except.toOption], hcompile⟩

theorem faults_cons (key : String) (i : Nat) (value : Json) (values : List Json) :
    faults key i (value :: values) = (fault? key i value).toList ++ faults key (i + 1) values := by
  rw [faults, List.zipIdx_cons, List.filterMap_cons]
  cases fault? key i value <;> rfl

/-- The rules of a list of definitions, and the errors of those that give none. -/
theorem compileFrom_eq (key : String) (i : Nat) (values : List Json) :
    compileFrom key i values = (values.filterMap rule?, faults key i values) := by
  induction values generalizing i with
  | nil => rfl
  | cons value values ih =>
      rw [compileFrom, ih, faults_cons, fault?]
      rcases compileAt_cases key i value with ⟨rule, hrule, hcompile⟩ | ⟨hnone, e, hcompile⟩
      · rw [hcompile, List.filterMap_cons_some hrule]
        rfl
      · rw [hcompile, List.filterMap_cons_none hnone]
        rfl

/-- There is one error for each definition that gives no rule. -/
theorem length_faults (key : String) (i : Nat) (values : List Json) :
    (faults key i values).length = values.countP fun value => (rule? value).isNone := by
  induction values generalizing i with
  | nil => rfl
  | cons value values ih =>
      rw [faults_cons, List.length_append, ih, List.countP_cons, fault?, Nat.add_comm]
      rcases compileAt_cases key i value with ⟨rule, hrule, hcompile⟩ | ⟨hnone, e, hcompile⟩
      · simp [hcompile, hrule]
      · simp [hcompile, hnone]

end Lists

section Scenes

variable (source : String) (file : SceneSource)

theorem rules_compile : (compile source file).rules = file.rules.filterMap rule? := by
  rw [compile, compileFrom_eq, compileFrom_eq]

theorem globalRules_compile :
    (compile source file).globalRules = file.globalRules.filterMap rule? := by
  rw [compile, compileFrom_eq, compileFrom_eq]

/-- The errors of the rules of the scene come before those of the global rules. -/
theorem errors_compile :
    (compile source file).errors =
      faults "rules" 0 file.rules ++ faults "globalRules" 0 file.globalRules := by
  rw [compile, compileFrom_eq, compileFrom_eq]

/-- Every definition of a file gives a rule or an error. -/
theorem length_compile :
    (compile source file).rules.length + (compile source file).globalRules.length +
        (compile source file).errors.length =
      file.rules.length + file.globalRules.length := by
  have hsplit (values : List Json) : (values.filterMap rule?).length +
      values.countP (fun value => (rule? value).isNone) = values.length := by
    rw [List.length_filterMap_eq_countP,
      List.length_eq_countP_add_countP fun value => (rule? value).isSome]
    refine congrArg _ (List.countP_congr fun value _ => ?_)
    rw [Option.isNone_iff_eq_none, decide_eq_true_eq, Option.not_isSome_iff_eq_none]
  have hrules := hsplit file.rules
  have hglobal := hsplit file.globalRules
  rw [rules_compile, globalRules_compile, errors_compile, List.length_append, length_faults,
    length_faults]
  omega

end Scenes

end Scene
end EntityRules
