import EntityRules.Proofs.Assoc
import EntityRules.Proofs.Expr.Forms

/-!
# Operators that evaluate nothing but their arguments

An operator is handed an evaluator and could evaluate anything with it: a document that it found in
the data, or one of its own making.  Each standard operator evaluates its arguments only, where one
that is missing is the literal null.  So its outcome is the same with any two evaluators that agree
on its arguments, and an operator that is not there is blamed by its arguments or not at all.

**Results.**
* `agree_bind`, `agree_mapM`, `agree_foldlM`: outcomes made from others.
* `standard_confined`: each standard operator.
* `OfStandard.confined`: tables of such operators.
-/

namespace EntityRules
namespace Expr

/-! ## Outcomes -/

/-- The outcome blames an operator that is not there only under names with a property. -/
def Blames {α : Type} (P : String → Prop) (result : Except EvalError α) : Prop :=
  ∀ name, result = .error (.unknownOperator name) → P name

/-- Two evaluations have one outcome, which blames only names with a property. -/
def Agree {α : Type} (P : String → Prop) (x y : Except EvalError α) : Prop := x = y ∧ Blames P x

section Outcomes

variable {α β : Type} {P Q : String → Prop} {x y : Except EvalError α}

theorem agree_ok (a : α) : Agree P (.ok a) (.ok a) := ⟨rfl, nofun⟩

theorem agree_pure (a : α) : Agree P (pure a : Except EvalError α) (pure a) := agree_ok a

/-- An error of another kind blames nobody. -/
theorem agree_error {error : EvalError} (h : ∀ name, error ≠ .unknownOperator name) :
    Agree P (.error error : Except EvalError α) (.error error) :=
  ⟨rfl, fun name herror => absurd (Except.error.inj herror) (h name)⟩

theorem Agree.mono (h : Agree P x y) (hPQ : ∀ name, P name → Q name) : Agree Q x y :=
  ⟨h.1, fun name herror => hPQ name (h.2 name herror)⟩

theorem agree_bind {f g : α → Except EvalError β} (h : Agree P x y)
    (hfg : ∀ a, Agree P (f a) (g a)) : Agree P (x >>= f) (y >>= g) := by
  obtain ⟨rfl, hblames⟩ := h
  cases x with
  | error e =>
      exact ⟨rfl, fun name herror =>
        hblames name (congrArg Except.error (Except.error.inj herror))⟩
  | ok a => exact hfg a

theorem agree_map (h : Agree P x y) (f : α → β) : Agree P (x.map f) (y.map f) := by
  obtain ⟨rfl, hblames⟩ := h
  cases x with
  | error e =>
      exact ⟨rfl, fun name herror =>
        hblames name (congrArg Except.error (Except.error.inj herror))⟩
  | ok a => exact agree_ok (f a)

theorem agree_mapM {f g : α → Except EvalError β} {l : List α}
    (h : ∀ a ∈ l, Agree P (f a) (g a)) : Agree P (l.mapM f) (l.mapM g) := by
  induction l with
  | nil => exact agree_pure []
  | cons a l ih =>
      obtain ⟨ha, hl⟩ := List.forall_mem_cons.mp h
      rw [List.mapM_cons, List.mapM_cons]
      exact agree_bind ha fun b => agree_bind (ih hl) fun bs => agree_pure (b :: bs)

theorem agree_foldlM {f g : β → α → Except EvalError β} (h : ∀ b a, Agree P (f b a) (g b a))
    (b : β) (l : List α) : Agree P (l.foldlM f b) (l.foldlM g b) := by
  induction l generalizing b with
  | nil => exact agree_pure b
  | cons a l ih =>
      rw [List.foldlM_cons, List.foldlM_cons]
      exact agree_bind (h b a) fun b => ih b

end Outcomes

/-! ## Evaluators -/

/-- Two evaluators agree on some expressions and on the literal null, whatever the data. -/
def Evaluator.AgreeOn (P : String → Prop) (args : List Json) (e e' : Evaluator) : Prop :=
  ∀ arg ∈ .null :: args, ∀ data, Agree P (e.evaluate arg data) (e'.evaluate arg data)

/-- An operator evaluates nothing but its arguments: with evaluators that agree on them it has one
outcome, and it passes on their blame and adds none. -/
def Operator.Confined (operator : Operator) : Prop :=
  ∀ (P : String → Prop) (e e' : Evaluator) (args : List Json), Evaluator.AgreeOn P args e e' →
    ∀ data, Agree P (operator e args data) (operator e' args data)

section Evaluators

variable {P : String → Prop} {e e' : Evaluator} {args : List Json}

namespace Evaluator.AgreeOn

/-- The literal null is null to every evaluator of a table. -/
theorem of_args (hnull : ∀ data, e.evaluate .null data = .ok .null)
    (hnull' : ∀ data, e'.evaluate .null data = .ok .null)
    (h : ∀ arg ∈ args, ∀ data, Agree P (e.evaluate arg data) (e'.evaluate arg data)) :
    AgreeOn P args e e' := by
  intro arg harg data
  rcases List.mem_cons.mp harg with rfl | hmem
  · rw [hnull, hnull']
    exact agree_ok _
  · exact h arg hmem data

theorem mem (h : AgreeOn P args e e') {arg : Json} (harg : arg ∈ args) (data : Json) :
    Agree P (e.evaluate arg data) (e'.evaluate arg data) :=
  h arg (List.mem_cons_of_mem _ harg) data

theorem tail {arg : Json} (h : AgreeOn P (arg :: args) e e') : AgreeOn P args e e' := by
  intro other hother data
  rcases List.mem_cons.mp hother with rfl | hmem
  · exact h .null List.mem_cons_self data
  · exact h.mem (List.mem_cons_of_mem arg hmem) data

/-- The argument at a position is among them, or the literal null. -/
theorem argument (h : AgreeOn P args e e') (i : Nat) (data : Json) :
    Agree P (e.evaluate (argument args i) data) (e'.evaluate (Expr.argument args i) data) := by
  refine h _ ?_ data
  rw [Expr.argument, List.getD_eq_getElem?_getD]
  cases hi : args[i]? with
  | none => exact List.mem_cons_self
  | some arg => exact List.mem_cons_of_mem _ (List.mem_of_getElem? hi)

/-- Resolving an argument evaluates it at most. -/
theorem resolve (h : AgreeOn P args e e') (i : Nat) (data : Json) :
    Agree P (e.resolve (Expr.argument args i) data) (e'.resolve (Expr.argument args i) data) := by
  unfold Evaluator.resolve
  split
  · exact agree_ok _
  · exact agree_map (h.argument i data) _

theorem evaluateAll (h : AgreeOn P args e e') (data : Json) :
    Agree P (e.evaluateAll args data) (e'.evaluateAll args data) :=
  agree_mapM fun _ harg => h.mem harg data

theorem evaluatePair (h : AgreeOn P args e e') (name : String) (data : Json) :
    Agree P (e.evaluatePair name args data) (e'.evaluatePair name args data) := by
  unfold Evaluator.evaluatePair
  split
  · next a b =>
      exact agree_bind (h.mem (by simp) data) fun x =>
        agree_bind (h.mem (by simp) data) fun y => agree_pure (x, y)
  · exact agree_error nofun

theorem collection (h : AgreeOn P args e e') (data : Json) :
    Agree P (Operator.collection e args data) (Operator.collection e' args data) :=
  agree_bind (h.resolve 0 data) fun _ => agree_pure _

end Evaluator.AgreeOn

theorem agree_numeric (name : String) (value : Json) :
    Agree P (numeric name value) (numeric name value) := by
  unfold numeric
  split
  · exact agree_ok _
  · exact agree_error nofun

theorem agree_numerics (name : String) (values : List Json) :
    Agree P (numerics name values) (numerics name values) :=
  agree_mapM fun value _ => agree_numeric name value

end Evaluators

/-! ## The standard operators -/

namespace Operator

section Data

theorem confined_var : Confined var := by
  intro P e e' args h data
  refine agree_bind (h.argument 0 data) fun path => ?_
  cases path with
  | bool | arr | obj => exact agree_error nofun
  | null | str | num =>
      refine agree_bind (agree_pure _) fun found => ?_
      dsimp only
      split
      · exact h.mem (by simp) data
      · exact h.mem (by simp) data
      · exact agree_pure _
      · exact agree_pure _

theorem confined_missing : Confined missing :=
  fun _ _ _ _ h data => agree_bind (h.evaluateAll data) fun _ => agree_pure _

end Data

section Logic

variable {P : String → Prop} {e e' : Evaluator}

theorem confined_branch : Confined branch
  | _, _, _, [], _, _ => agree_ok Json.null
  | _, _, _, [_], h, data => h.mem List.mem_cons_self data
  | P, e, e', condition :: consequence :: rest, h, data => by
      refine agree_bind (h.mem List.mem_cons_self data) fun value => ?_
      split
      · exact h.tail.mem List.mem_cons_self data
      · exact confined_branch P e e' rest h.tail.tail data

theorem agree_chain (go : Json → Bool) {args : List Json} (h : Evaluator.AgreeOn P args e e')
    (last data : Json) : Agree P (chain e go args last data) (chain e' go args last data) := by
  induction args generalizing last with
  | nil => exact agree_ok last
  | cons arg rest ih =>
      refine agree_bind (h.mem List.mem_cons_self data) fun value => ?_
      split
      · exact ih h.tail value
      · exact agree_pure value

theorem confined_conjunction : Confined conjunction :=
  fun _ _ _ _ h data => agree_chain Json.truthy h .null data

theorem confined_disjunction : Confined disjunction :=
  fun _ _ _ _ h data => agree_chain (!·.truthy) h .null data

theorem confined_truth : Confined truth :=
  fun _ _ _ _ h data => agree_bind (h.argument 0 data) fun _ => agree_pure _

theorem confined_negation : Confined negation :=
  fun _ _ _ _ h data => agree_bind (h.argument 0 data) fun _ => agree_pure _

end Logic

section Numbers

theorem confined_test (name : String) (relation : Json → Json → Bool) :
    Confined (test name relation) :=
  fun _ _ _ _ h data => agree_bind (h.evaluatePair name data) fun _ => agree_pure _

theorem confined_comparison (name : String) (accept : Ordering → Bool) (between : Bool) :
    Confined (comparison name accept between) := by
  intro P e e' args h data
  unfold comparison
  split
  · exact agree_bind (h.evaluateAll data) fun _ => agree_pure _
  · exact agree_error nofun

theorem confined_sum : Confined sum :=
  fun _ _ _ _ h data => agree_bind (h.evaluateAll data) fun values =>
    agree_bind (agree_numerics "+" values) fun _ => agree_pure _

theorem confined_product : Confined product :=
  fun _ _ _ _ h data => agree_bind (h.evaluateAll data) fun values =>
    agree_bind (agree_numerics "*" values) fun _ => agree_pure _

theorem confined_difference : Confined difference := by
  intro P e e' args h data
  refine agree_bind (h.evaluateAll data) fun values => ?_
  split
  · next a => exact agree_bind (agree_numeric "-" a) fun _ => agree_pure _
  · next a b =>
      exact agree_bind (agree_numeric "-" a) fun _ =>
        agree_bind (agree_numeric "-" b) fun _ => agree_pure _
  · exact agree_error nofun

theorem confined_division (name : String) (divide : Float → Float → Float) :
    Confined (division name divide) := by
  intro P e e' args h data
  refine agree_bind (h.evaluatePair name data) fun pair => ?_
  refine agree_bind (agree_numeric name pair.2) fun divisor => ?_
  split
  · exact agree_error nofun
  · exact agree_bind (agree_numeric name pair.1) fun _ => agree_pure _

theorem confined_extreme (name : String) (pick : Float → Float → Float) :
    Confined (extreme name pick) := by
  intro P e e' args h data
  refine agree_bind (h.evaluateAll data) fun values => ?_
  refine agree_bind (agree_numerics name values) fun numbers => ?_
  split
  · exact agree_pure _
  · exact agree_pure _

end Numbers

section Lists

variable {P : String → Prop} {predicate predicate' : Json → Result}

theorem confined_cat : Confined cat :=
  fun _ _ _ _ h data => agree_bind (h.evaluateAll data) fun _ => agree_pure _

theorem confined_substr : Confined substr :=
  fun _ _ _ _ h data => agree_bind (h.evaluateAll data) fun _ => agree_pure _

theorem confined_member : Confined member :=
  fun _ _ _ _ h data => agree_bind (h.evaluatePair "in" data) fun _ => agree_pure _

theorem confined_merge : Confined merge :=
  fun _ _ _ _ h data => agree_bind (h.evaluateAll data) fun _ => agree_pure _

theorem confined_countItems : Confined countItems :=
  fun _ _ _ _ h data => agree_bind (h.resolve 0 data) fun _ => agree_pure _

theorem confined_mapItems : Confined mapItems :=
  fun _ _ _ _ h data => agree_bind (h.collection data) fun _ =>
    agree_bind (agree_mapM fun item _ => h.argument 1 item) fun _ => agree_pure _

theorem agree_keep (h : ∀ item, Agree P (predicate item) (predicate' item)) (items : List Json) :
    Agree P (keep predicate items) (keep predicate' items) := by
  induction items with
  | nil => exact agree_ok []
  | cons item rest ih =>
      exact agree_bind (h item) fun _ => agree_bind ih fun _ => agree_pure _

theorem confined_filterItems : Confined filterItems :=
  fun _ _ _ _ h data => agree_bind (h.collection data) fun items =>
    agree_bind (agree_keep (h.argument 1) items) fun _ => agree_pure _

theorem confined_reduceItems : Confined reduceItems :=
  fun _ _ _ _ h data => agree_bind (h.collection data) fun items =>
    agree_bind (h.argument 2 data) fun start =>
      agree_foldlM (fun _ _ => h.argument 1 _) start items

theorem agree_every (h : ∀ item, Agree P (predicate item) (predicate' item)) (items : List Json) :
    Agree P (every predicate items) (every predicate' items) := by
  induction items with
  | nil => exact agree_ok true
  | cons item rest ih =>
      refine agree_bind (h item) fun value => ?_
      split
      · exact ih
      · exact agree_pure false

theorem agree_exists? (h : ∀ item, Agree P (predicate item) (predicate' item))
    (items : List Json) : Agree P (exists? predicate items) (exists? predicate' items) := by
  induction items with
  | nil => exact agree_ok false
  | cons item rest ih =>
      refine agree_bind (h item) fun value => ?_
      split
      · exact agree_pure true
      · exact ih

theorem confined_holdsForAll : Confined holdsForAll := by
  intro P e e' args h data
  refine agree_bind (h.collection data) fun items => ?_
  split
  · exact agree_pure _
  · exact agree_bind (agree_every (h.argument 1) items) fun _ => agree_pure _

theorem confined_holdsForSome : Confined holdsForSome :=
  fun _ _ _ _ h data => agree_bind (h.collection data) fun items =>
    agree_bind (agree_exists? (h.argument 1) items) fun _ => agree_pure _

theorem confined_holdsForNone : Confined holdsForNone :=
  fun _ _ _ _ h data => agree_bind (h.collection data) fun items =>
    agree_bind (agree_exists? (h.argument 1) items) fun _ => agree_pure _

end Lists

end Operator

open Operator in
/-- The standard operators evaluate nothing but their arguments. -/
theorem standard_confined : ∀ entry ∈ Operators.standardEntries, entry.2.Confined := by
  simp only [Operators.standardEntries, List.forall_mem_cons]
  exact ⟨confined_var, confined_missing, confined_branch, confined_branch, confined_conjunction,
    confined_disjunction, confined_negation, confined_truth, confined_test _ _,
    confined_test _ _, confined_test _ _, confined_test _ _, confined_comparison _ _ _,
    confined_comparison _ _ _, confined_comparison _ _ _, confined_comparison _ _ _,
    confined_sum, confined_difference, confined_product, confined_division _ _,
    confined_division _ _, confined_extreme _ _, confined_extreme _ _, confined_cat,
    confined_substr, confined_member, confined_merge, confined_countItems, confined_mapItems,
    confined_filterItems, confined_reduceItems, confined_holdsForAll, confined_holdsForSome,
    confined_holdsForNone, by simp⟩

/-! ## Tables -/

namespace Operators

variable {table : Operators} {name : String} {operator : Operator}

/-- Every operator of a table is a standard one, under whatever name. -/
def OfStandard (table : Operators) : Prop :=
  ∀ name operator, table.find? name = some operator →
    ∃ entry ∈ standardEntries, entry.2 = operator

/-- Every operator of a table evaluates nothing but its arguments. -/
def Confined (table : Operators) : Prop :=
  ∀ name operator, table.find? name = some operator → operator.Confined

theorem OfStandard.confined (h : table.OfStandard) : table.Confined := by
  intro name operator hfind
  obtain ⟨entry, hmem, rfl⟩ := h name operator hfind
  exact standard_confined entry hmem

theorem ofStandard_standard : standard.OfStandard := by
  intro name operator hfind
  exact ⟨(name, operator), Assoc.mem_of_mem_ofList (Assoc.mem_of_find? hfind), rfl⟩

theorem confined_standard : standard.Confined := ofStandard_standard.confined

end Operators

end Expr
end EntityRules
