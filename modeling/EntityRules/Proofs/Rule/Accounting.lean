import EntityRules.Proofs.Rule.Assignment

/-!
# Accounts of operations

Operations run one after another on one context, each on what those before it have left.  An
operation can fail at four points, and for the last of them the walk of its assignment is on its
way already.  It is reported once or it is counted as applied, and the fields that a command names
are all that its operations get at.

**Results.**
* `perform_eq`: an operation that works in place has the outcome of `Mutation.step`.
* `run_append`, `run_concat`: runs one after another, and the last operation of a run.
* `without_run`: what is left of the context without the fields that the command names.
* `Mutation.run_accounts`: all operations.
-/

namespace EntityRules

/-! ## Documents without some fields -/

/-- An object without the members of some names. -/
def Json.without (names : List String) : Json → Json
  | .obj fields => .obj (fields.filter fun entry => entry.1 ∉ names)
  | other => other

theorem Json.without_insert {names : List String} {name : String} (h : name ∈ names) (value : Json)
    (fields : Fields) :
    (Json.obj (Assoc.insert name value fields)).without names =
      (Json.obj fields).without names := by
  have hfilter : (Assoc.insert name value fields).filter (fun entry => entry.1 ∉ names) =
      fields.filter fun entry => entry.1 ∉ names := by
    induction fields with
    | nil => simp [Assoc.insert, h]
    | cons entry rest ih =>
        obtain ⟨k, v⟩ := entry
        by_cases hk : k = name
        · simp [Assoc.insert, hk, h]
        · by_cases hlt : name < k
          · simp [Assoc.insert, hk, hlt, h]
          · rw [Assoc.insert, if_neg hk, if_neg hlt, List.filter_cons, List.filter_cons, ih]
  rw [without, without, hfilter]

namespace Mutation

variable {table : Expr.Operators} {rule : String} {context context' : Json} {op : Operation}
variable {operations : List Operation} {roots : List String}

/-! ## One operation -/

/-- One operation on a context that it changes as it goes.  Gives the context as the operation
leaves it, and its failure, if it fails. -/
def perform (table : Expr.Operators) (rule : String) (context : Json) (op : Operation) :
    Json × Option Failure :=
  match op.target with
  | .error fault =>
    (context, some (.malformed ("target path in rule '" ++ rule ++ "'") fault.message))
  | .ok path =>
    match Expr.evaluate table op.value context with
    | .error e =>
      (context, some (.evaluation rule ("value for '" ++ path.text ++ "': " ++ e.message)))
    | .ok value =>
      match context.get? selfKey with
      | none => (context, some (.conversion path.text "context has no document"))
      | some _ =>
        let (context, blocked) := path.assignWithin [selfKey] context value
        (context, blocked.map fun blocked => .conversion path.text blocked.message)

/-- An operation that fails in place leaves the context as it was. -/
theorem perform_eq (table : Expr.Operators) (rule : String) (context : Json) (op : Operation) :
    perform table rule context op =
      match step table rule context op with
      | .ok context' => (context', none)
      | .error e => (context, some e) := by
  simp only [perform, step]
  cases op.target with
  | error fault => rfl
  | ok path =>
      cases Expr.evaluate table op.value context with
      | error e => rfl
      | ok value =>
          cases context with
          | null | bool | num | str | arr => rfl
          | obj fields =>
              cases hself : Assoc.find? selfKey fields with
              | none => simp only [Json.get?, hself]
              | some document =>
                  have hplace : (Json.obj fields).at? [selfKey] = some document := by
                    rw [Json.at?_cons, Json.get?, hself]
                    rfl
                  simp only [Json.get?, hself, Target.assignWithin_eq hplace]
                  cases path.assign document value with
                  | error blocked => rfl
                  | ok document' =>
                      have hinsert := Json.modifyAt_cons_of_find? hself (fun _ => document') []
                      simp only [hinsert]
                      rfl

/-- An operation that applies is an assignment within the document of the context. -/
theorem step_eq_ok (h : step table rule context op = .ok context') :
    ∃ path value fields document document', op.target = .ok path ∧ context = .obj fields ∧
      Assoc.find? selfKey fields = some document ∧ path.assign document value = .ok document' ∧
      context' = .obj (Assoc.insert selfKey document' fields) := by
  simp only [step] at h
  split at h
  · cases h
  · next path htarget =>
      split at h
      · cases h
      · next value _ =>
          split at h
          · next fields _ =>
              split at h
              · cases h
              · next document hself =>
                  split at h
                  · next document' hassign =>
                      exact ⟨path, value, fields, document, document', htarget, rfl, hself, hassign,
                        (Except.ok.inj h).symm⟩
                  · cases h
          · cases h

/-- An assignment changes the field under the root of its path. -/
theorem without_assign {path : Target} {document document' value : Json}
    (hroot : path.root ∈ roots) (h : path.assign document value = .ok document') :
    document'.without roots = document.without roots := by
  have hobject : document.fields? ≠ none := by
    intro hnone
    have hblocked : ∃ blocked, path.assign document value = .error blocked :=
      Target.assign_error_iff.mpr (Or.inl hnone)
    rw [h] at hblocked
    obtain ⟨blocked, hblocked⟩ := hblocked
    cases hblocked
  cases document with
  | null | bool | num | str | arr => exact absurd rfl hobject
  | obj fields =>
      obtain ⟨child, rfl⟩ := Target.assign_obj h
      exact Json.without_insert hroot child fields

theorem without_step (hroot : ∀ path, op.target = .ok path → path.root ∈ roots)
    (h : step table rule context op = .ok context') :
    context'.without [selfKey] = context.without [selfKey] ∧
      (context'.get? selfKey).map (Json.without roots) =
        (context.get? selfKey).map (Json.without roots) := by
  obtain ⟨path, value, fields, document, document', htarget, rfl, hself, hassign, rfl⟩ :=
    step_eq_ok h
  refine ⟨Json.without_insert List.mem_cons_self document' fields, ?_⟩
  rw [Json.get?, Json.get?, Assoc.find?_insert_self, hself, Option.map_some, Option.map_some,
    without_assign (hroot path htarget) hassign]

/-! ## All operations -/

/-- The outcome of operations and of those that run after them. -/
def Outcome.followedBy (first last : Outcome) : Outcome :=
  ⟨last.context, first.failures ++ last.failures, first.applied + last.applied⟩

theorem run_append (table : Expr.Operators) (rule : String) (done rest : List Operation)
    (context : Json) :
    run table rule (done ++ rest) context =
      (run table rule done context).followedBy
        (run table rule rest (run table rule done context).context) := by
  induction done generalizing context with
  | nil => simp only [List.nil_append, run, Outcome.followedBy, Nat.zero_add]
  | cons op done ih =>
      rw [List.cons_append, run, run]
      split
      · simp only [ih, Outcome.followedBy, Nat.add_right_comm]
      · simp only [ih, Outcome.followedBy, List.cons_append]

/-- Whether an outcome accounts for one more operation: it is counted as applied, or its failure is
reported and the context is as it was. -/
def Outcome.Accounts (before after : Outcome) : Json × Option Failure → Prop
  | (context, none) => after.context = context ∧ after.applied = before.applied + 1 ∧
      after.failures = before.failures
  | (context, some e) => after.context = context ∧ context = before.context ∧
      after.applied = before.applied ∧ after.failures = before.failures ++ [e]

theorem run_concat (table : Expr.Operators) (rule : String) (done : List Operation)
    (op : Operation) (context : Json) :
    (run table rule done context).Accounts (run table rule (done ++ [op]) context)
      (perform table rule (run table rule done context).context op) := by
  rw [run_append, perform_eq]
  generalize run table rule done context = before
  cases hstep : step table rule before.context op with
  | ok context' =>
      have hrun : run table rule [op] before.context = ⟨context', [], 1⟩ := by
        simp only [run, hstep]
      rw [hrun]
      exact ⟨rfl, rfl, List.append_nil _⟩
  | error e =>
      have hrun : run table rule [op] before.context = ⟨before.context, [e], 0⟩ := by
        simp only [run, hstep]
      rw [hrun]
      exact ⟨rfl, rfl, rfl, rfl⟩

theorem applied_run (table : Expr.Operators) (rule : String) (operations : List Operation)
    (context : Json) :
    (run table rule operations context).applied +
      (run table rule operations context).failures.length = operations.length := by
  induction operations generalizing context with
  | nil => rfl
  | cons op operations ih =>
      rw [run, List.length_cons]
      split
      · next context' _ =>
          have hrest := ih context'
          exact (Nat.add_right_comm _ 1 _).trans (congrArg (· + 1) hrest)
      · exact congrArg (· + 1) (ih context)

/-- What no target of the operations gets at is left of the context. -/
theorem without_run (hroots : ∀ op ∈ operations, ∀ path, op.target = .ok path → path.root ∈ roots)
    (table : Expr.Operators) (rule : String) (context : Json) :
    let context' := (run table rule operations context).context
    context'.without [selfKey] = context.without [selfKey] ∧
      (context'.get? selfKey).map (Json.without roots) =
        (context.get? selfKey).map (Json.without roots) := by
  induction operations generalizing context with
  | nil => exact ⟨rfl, rfl⟩
  | cons op operations ih =>
      obtain ⟨hop, hrest⟩ := List.forall_mem_cons.mp hroots
      rw [run]
      split
      · next context' hstep =>
          obtain ⟨hothers, hself⟩ := without_step hop hstep
          obtain ⟨hothers', hself'⟩ := ih hrest context'
          exact ⟨hothers'.trans hothers, hself'.trans hself⟩
      · exact ih hrest context

/-- **The account of operations.**  Each operation is counted as applied or it is reported, and one
that is reported has left the context as it was.  In the end nothing has changed but fields of the
document that the command names. -/
theorem run_accounts (table : Expr.Operators) (rule : String) (operations : List Operation)
    (context : Json) :
    let o := run table rule operations context
    let roots := (Command.mutate operations).changedFields
    o.applied + o.failures.length = operations.length ∧
      (∀ d : Diagnostics,
        (d.reportAll o.failures).total + o.applied = d.total + operations.length) ∧
      (∀ done op rest, operations = done ++ op :: rest →
        let before := run table rule done context
        let after := run table rule (done ++ [op]) context
        o = after.followedBy (run table rule rest after.context) ∧
          before.Accounts after (perform table rule before.context op)) ∧
      o.context.without [selfKey] = context.without [selfKey] ∧
      (o.context.get? selfKey).map (Json.without roots) =
        (context.get? selfKey).map (Json.without roots) := by
  intro o roots
  have hall : o.applied + o.failures.length = operations.length :=
    applied_run table rule operations context
  refine ⟨hall, fun d => ?_, ?_, without_run (fun op hop path htarget => ?_) table rule context⟩
  · rw [Diagnostics.total_reportAll, ← hall]
    omega
  · intro done op rest hsplit before after
    refine ⟨?_, run_concat table rule done op context⟩
    have happend := run_append table rule (done ++ [op]) rest context
    rwa [List.append_assoc, List.singleton_append, ← hsplit] at happend
  · exact Command.mem_changedFields.mpr ⟨op, hop, path, htarget, rfl⟩

end Mutation
end EntityRules
