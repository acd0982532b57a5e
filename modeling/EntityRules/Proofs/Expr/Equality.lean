import EntityRules.Proofs.Expr.Names
import EntityRules.Proofs.Json.Equality

/-!
# Strict and loose equality of documents

Both relations compare numbers by their floating-point values, which are finite, so a number is
equal to itself.  Strict equality leaves it at that and compares all else as values; loose equality
also goes through the numbers that texts and truth values count as.  It is not transitive: a text
may be no number or stand for the same number as another text.

**Results.**
* `toFloat_beq_iff`: the comparison of numbers as equality of rationals.
* `strictlyEqual_equivalence`, `strictlyEqual_of_beq`: strict equality.
* `looselyEqual_self`, `looselyEqual_comm`, `looselyEqual_of_strictlyEqual`: loose equality.
* `equalities_of_values`: the two relations, the operators that test them and the search for an
  item.
-/

namespace EntityRules

open Numeric (value?)

/-! ## Numbers -/

namespace Number

variable {m n : Number}

theorem toFloat_isFinite (n : Number) : n.toFloat.isFinite = true := by
  cases n with
  | int n hn => exact Numeric.floatOfInt_isFinite (by omega)
  | real x hx => exact hx

theorem toFloat_isNaN (n : Number) : n.toFloat.isNaN = false :=
  Numeric.isNaN_of_isFinite n.toFloat_isFinite

/-- Numbers are compared as the rationals that their floating-point values stand for. -/
theorem toFloat_beq_iff :
    (m.toFloat == n.toFloat) = true ↔ value? m.toFloat = value? n.toFloat := by
  obtain ⟨v, hv⟩ := (Numeric.isFinite_iff_value? m.toFloat).mp m.toFloat_isFinite
  obtain ⟨w, hw⟩ := (Numeric.isFinite_iff_value? n.toFloat).mp n.toFloat_isFinite
  rw [Numeric.beq_iff_value? hv hw, hv, hw, Option.some.injEq]

/-- Numbers of one kind and value have one floating-point value. -/
theorem toFloat_beq_of_beq (h : (m == n) = true) : (m.toFloat == n.toFloat) = true := by
  cases m with
  | int m hm =>
      cases n with
      | int n hn =>
          obtain rfl : m = n := eq_of_beq h
          exact toFloat_beq_iff.mpr rfl
      | real y hy => exact absurd h Bool.false_ne_true
  | real x hx =>
      cases n with
      | int n hn => exact absurd h Bool.false_ne_true
      | real y hy => exact h

end Number

/-! ## Strict equality -/

namespace Json

section Strict

variable {a b c : Json} {m : Number}

theorem strictlyEqual_num_iff :
    strictlyEqual (.num m) b = true ↔ ∃ n, b = .num n ∧ value? m.toFloat = value? n.toFloat := by
  cases b with
  | num n => simp [strictlyEqual, Number.toFloat_beq_iff]
  | null | bool | str | arr | obj => simp [strictlyEqual, BEq.beq, beq]

/-- What is no number is compared as a value. -/
theorem strictlyEqual_eq_beq (h : ∀ n, a ≠ .num n) (b : Json) : strictlyEqual a b = (a == b) := by
  rw [strictlyEqual]
  intro m n ha
  exact absurd ha (h m)

/-- What is equal to no number is no number. -/
theorem ne_num_of_beq (h : ∀ n, a ≠ .num n) (hab : (a == b) = true) : ∀ n, b ≠ .num n := by
  rintro n rfl
  obtain ⟨m, rfl, -⟩ := beq_num_iff.mp (beq_symm a hab)
  exact h m rfl

theorem strictlyEqual_equivalence : Equivalence fun a b : Json => strictlyEqual a b = true where
  refl a := by
    cases a with
    | num m => exact strictlyEqual_num_iff.mpr ⟨m, rfl, rfl⟩
    | null | bool | str | arr | obj =>
        rw [strictlyEqual_eq_beq (by simp)]
        exact beq_rfl _
  symm {a b} h := by
    cases a with
    | num m =>
        obtain ⟨n, rfl, hvalue⟩ := strictlyEqual_num_iff.mp h
        exact strictlyEqual_num_iff.mpr ⟨m, rfl, hvalue.symm⟩
    | null | bool | str | arr | obj =>
        rw [strictlyEqual_eq_beq (by simp)] at h
        rw [strictlyEqual_eq_beq (ne_num_of_beq (by simp) h)]
        exact beq_symm _ h
  trans {a b c} hab hbc := by
    cases a with
    | num l =>
        obtain ⟨m, rfl, hlm⟩ := strictlyEqual_num_iff.mp hab
        obtain ⟨n, rfl, hmn⟩ := strictlyEqual_num_iff.mp hbc
        exact strictlyEqual_num_iff.mpr ⟨n, rfl, hlm.trans hmn⟩
    | null | bool | str | arr | obj =>
        rw [strictlyEqual_eq_beq (by simp)] at hab ⊢
        rw [strictlyEqual_eq_beq (ne_num_of_beq (by simp) hab)] at hbc
        exact beq_trans _ hab hbc

/-- Equal values are strictly equal. -/
theorem strictlyEqual_of_beq (h : (a == b) = true) : strictlyEqual a b = true := by
  cases a with
  | num m =>
      obtain ⟨n, rfl, hmn⟩ := beq_num_iff.mp h
      exact Number.toFloat_beq_of_beq hmn
  | null | bool | str | arr | obj => rwa [strictlyEqual_eq_beq (by simp)]

end Strict

/-! ## Loose equality -/

section Loose

variable {a b : Json}

/-- The comparison of the numbers that two documents count as. -/
def equalNumbers (a b : Json) : Bool :=
  match a.toNumber?, b.toNumber? with
  | some x, some y => x == y
  | _, _ => false

theorem equalNumbers_comm (a b : Json) : equalNumbers a b = equalNumbers b a := by
  rw [equalNumbers, equalNumbers]
  cases a.toNumber? with
  | none => cases b.toNumber? <;> rfl
  | some x =>
      cases b.toNumber? with
      | none => rfl
      | some y => exact Numeric.float_beq_comm x y

/-- Null is loosely equal to itself only. -/
theorem looselyEqual_null_left (b : Json) : looselyEqual .null b = b.isNull := by
  cases b <;> rfl

theorem looselyEqual_null_right (a : Json) : looselyEqual a .null = a.isNull := by
  cases a <;> rfl

/-- Lists and objects are compared as values. -/
theorem looselyEqual_compound_left (ha : a.isCompound = true) (b : Json) :
    looselyEqual a b = (a == b) := by
  cases a with
  | arr | obj => cases b <;> rfl
  | null | bool | num | str => exact nomatch ha

theorem looselyEqual_compound_right (a : Json) (hb : b.isCompound = true) :
    looselyEqual a b = (a == b) := by
  cases b with
  | arr | obj => cases a <;> rfl
  | null | bool | num | str => exact nomatch hb

/-- Whether a document is neither null nor a list or an object. -/
def isScalar (a : Json) : Bool := !a.isNull && !a.isCompound

/-- Scalars are compared as the numbers that they count as, unless both are texts. -/
theorem looselyEqual_scalars (ha : a.isScalar = true) (hb : b.isScalar = true)
    (h : a.string? = none ∨ b.string? = none) : looselyEqual a b = equalNumbers a b := by
  cases a with
  | null | arr | obj => exact nomatch ha
  | str s =>
      cases b with
      | str t => exact h.elim nofun nofun
      | bool | num => rfl
      | null | arr | obj => exact nomatch hb
  | bool | num =>
      cases b with
      | bool | num | str => rfl
      | null | arr | obj => exact nomatch hb

theorem looselyEqual_self (a : Json) : looselyEqual a a = true := by
  cases a with
  | null => rfl
  | bool b => cases b <;> decide +kernel
  | num m => exact Number.toFloat_beq_iff.mpr rfl
  | str s => exact beq_self_eq_true s
  | arr | obj =>
      rw [looselyEqual_compound_left rfl]
      exact beq_rfl _

theorem looselyEqual_comm (a b : Json) : looselyEqual a b = looselyEqual b a := by
  cases a with
  | null => rw [looselyEqual_null_left, looselyEqual_null_right]
  | arr | obj =>
      rw [looselyEqual_compound_left rfl, looselyEqual_compound_right b rfl]
      exact BEq.comm
  | str s =>
      cases b with
      | str t => exact BEq.comm (α := String)
      | bool | num =>
          rw [looselyEqual_scalars rfl rfl (Or.inr rfl), looselyEqual_scalars rfl rfl (Or.inl rfl)]
          exact equalNumbers_comm _ _
      | null => rfl
      | arr | obj => exact BEq.comm (α := Json)
  | bool | num =>
      cases b with
      | bool | num | str =>
          rw [looselyEqual_scalars rfl rfl (Or.inl rfl), looselyEqual_scalars rfl rfl (Or.inr rfl)]
          exact equalNumbers_comm _ _
      | null => rfl
      | arr | obj => exact BEq.comm (α := Json)

theorem looselyEqual_of_strictlyEqual (h : strictlyEqual a b = true) :
    looselyEqual a b = true := by
  cases a with
  | num m =>
      obtain ⟨n, rfl, hvalue⟩ := strictlyEqual_num_iff.mp h
      exact Number.toFloat_beq_iff.mpr hvalue
  | null =>
      rw [strictlyEqual_eq_beq (by simp)] at h
      rw [beq_null_iff.mp h]
      rfl
  | bool c =>
      rw [strictlyEqual_eq_beq (by simp)] at h
      rw [beq_bool_iff.mp h]
      exact looselyEqual_self _
  | str s =>
      rw [strictlyEqual_eq_beq (by simp)] at h
      rw [beq_str_iff.mp h]
      exact looselyEqual_self _
  | arr | obj =>
      rw [looselyEqual_compound_left rfl]
      rwa [strictlyEqual_eq_beq (by simp)] at h

end Loose

end Json

/-! ## The operators -/

namespace Expr

section Operators

variable {table : Operators} {name : String} {first second data x y : Json}

theorem evaluatePair_evaluator (label : String) (hx : evaluate table first data = .ok x)
    (hy : evaluate table second data = .ok y) :
    (evaluator table).evaluatePair label [first, second] data = .ok (x, y) := by
  have hfirst : (evaluator table).evaluate first data = .ok x := hx
  have hsecond : (evaluator table).evaluate second data = .ok y := hy
  rw [Evaluator.evaluatePair, hfirst, hsecond]
  rfl

/-- A test compares the values of its arguments. -/
theorem evaluate_test {label : String} {relation : Json → Json → Bool}
    (h : Operators.standard.find? name = some (Operator.test label relation))
    (hx : evaluate .standard first data = .ok x) (hy : evaluate .standard second data = .ok y) :
    evaluate .standard (binaryCall name first second) data = .ok (.bool (relation x y)) := by
  rw [evaluate_standardCall h, Operator.test, evaluatePair_evaluator label hx hy]
  rfl

/-- In a list a value is found among the items that are strictly equal to it. -/
theorem evaluate_member {items : List Json} (hx : evaluate .standard first data = .ok x)
    (hy : evaluate .standard second data = .ok (.arr items)) :
    evaluate .standard (binaryCall "in" first second) data =
      .ok (.bool (items.any fun item => item.strictlyEqual x)) := by
  have hfind : Operators.standard.find? "in" = some Operator.member := rfl
  rw [evaluate_standardCall hfind, Operator.member, evaluatePair_evaluator "in" hx hy]
  rfl

/-- **Equality of values.**  Strict equality is an equivalence relation, and equal values are
strictly equal; loose equality is reflexive and symmetric, and strictly equal values are loosely
equal.  Both compare numbers by their floating-point values, each of which is a number.  These are
the relations that `===` and `==` test, and a value is found in a list exactly if an item is
strictly equal to it. -/
theorem equalities_of_values :
    (Equivalence fun a b : Json => a.strictlyEqual b = true) ∧
    (∀ a b : Json, (a == b) = true → a.strictlyEqual b = true) ∧
    (∀ a : Json, a.looselyEqual a = true) ∧
    (∀ a b : Json, a.looselyEqual b = true → b.looselyEqual a = true) ∧
    (∀ a b : Json, a.strictlyEqual b = true → a.looselyEqual b = true) ∧
    (∀ m n : Number, m.toFloat.isNaN = false ∧
      Json.strictlyEqual (.num m) (.num n) = (m.toFloat == n.toFloat) ∧
      Json.looselyEqual (.num m) (.num n) = (m.toFloat == n.toFloat)) ∧
    ∀ first second data x y : Json,
      evaluate .standard first data = .ok x → evaluate .standard second data = .ok y →
        evaluate .standard (binaryCall "===" first second) data = .ok (.bool (x.strictlyEqual y)) ∧
        evaluate .standard (binaryCall "==" first second) data = .ok (.bool (x.looselyEqual y)) ∧
        ∀ items, y = .arr items →
          ∃ found, evaluate .standard (binaryCall "in" first second) data = .ok (.bool found) ∧
            (found = true ↔ ∃ item ∈ items, item.strictlyEqual x = true) := by
  refine ⟨Json.strictlyEqual_equivalence, fun a b h => Json.strictlyEqual_of_beq h,
    Json.looselyEqual_self, fun a b h => Json.looselyEqual_comm a b ▸ h,
    fun a b h => Json.looselyEqual_of_strictlyEqual h,
    fun m n => ⟨m.toFloat_isNaN, rfl, rfl⟩, fun first second data x y hx hy => ⟨?_, ?_, ?_⟩⟩
  · have hfind : Operators.standard.find? "===" =
        some (Operator.test "===" Json.strictlyEqual) := rfl
    exact evaluate_test hfind hx hy
  · have hfind : Operators.standard.find? "==" =
        some (Operator.test "==" Json.looselyEqual) := rfl
    exact evaluate_test hfind hx hy
  · rintro items rfl
    exact ⟨_, evaluate_member hx hy, List.any_eq_true⟩

/-- The floating-point number one, which as a value differs from the integer. -/
def floatOne : Json := .num (.real 1 (by decide +kernel))

theorem equalities_of_values_oneAmongTexts :
    let items : List Json := [.null, .str "1", floatOne]
    (Json.ofNat 1 == floatOne) = false ∧
    (Json.ofNat 1).strictlyEqual floatOne = true ∧ floatOne.looselyEqual (.ofNat 1) = true ∧
    evaluate .standard (binaryCall "in" (.ofNat 1) (.arr items)) .null = .ok (.bool true) := by
  intro items
  obtain ⟨hequivalence, -, -, hsymm, hloose, -, hoperators⟩ := equalities_of_values
  have hone : (Json.ofNat 1).strictlyEqual floatOne = true := by decide +kernel
  have hneedle : evaluate .standard (.ofNat 1) .null = .ok (.ofNat 1) := rfl
  have hlist : evaluate .standard (.arr items) .null = .ok (.arr items) := rfl
  obtain ⟨found, hfound, hmember⟩ := (hoperators _ _ _ _ _ hneedle hlist).2.2 items rfl
  obtain rfl := hmember.mpr ⟨floatOne, by simp [items], hequivalence.symm hone⟩
  exact ⟨rfl, hone, hsymm _ _ (hloose _ _ hone), hfound⟩

end Operators

end Expr
end EntityRules
