import EntityRules.Proofs.Expr.Names
import EntityRules.Proofs.Expr.Resolve

/-!
# Filters and quantifiers over the items of a list

The operators `filter`, `some`, `none` and `all` go through the items of a list with a predicate
and stop at different items.  A filter evaluates its predicate for every item, so where a filter
has a value none of the others can fail, and what it keeps decides them all.

**Results.**
* `collection_evaluator`: with a usual `var` a collection is what its expression evaluates to.
* `keep_eq_ok_iff`, `every_eq`, `exists?_eq`: the three loops as a filter, a universal and an
  existential test of the items.
* `filter_decides_quantifiers`: the four operators on one list and one predicate.
-/

namespace EntityRules
namespace Expr

/-! ## Collections -/

section Lists

variable {table : Operators}

/-- The items of a list expression, unless it has no value, if the table looks up as usual. -/
theorem collection_evaluator (h : table.LooksUp) (list data : Json) (args : List Json) :
    Operator.collection (evaluator table) (list :: args) data =
      (evaluate table list data).map itemsOf := by
  have hresolve : (resolve table list data).map Resolved.value = evaluate table list data :=
    resolve_eq_evaluate h list data
  have hfirst : (evaluator table).resolve (argument (list :: args) 0) data =
      resolve table list data := rfl
  rw [Operator.collection, hfirst, ← hresolve]
  cases resolve table list data <;> rfl

end Lists

/-! ## Predicates -/

/-- The predicate has a value for an item. -/
def Decides (predicate : Json → Result) (item : Json) : Prop :=
  ∃ answer, predicate item = .ok answer

/-- Whether the predicate is true for an item. -/
def accepts (predicate : Json → Result) (item : Json) : Bool :=
  match predicate item with
  | .ok answer => answer.truthy
  | .error _ => false

section Loops

open Operator (keep every exists?)

variable {predicate : Json → Result} {item : Json} {items kept : List Json}

theorem accepts_of_evaluate {answer : Json} (h : predicate item = .ok answer) :
    accepts predicate item = answer.truthy := by
  rw [accepts, h]

/-- A filter has a value just if its predicate has one for each item. -/
theorem keep_eq_ok_iff :
    keep predicate items = .ok kept ↔
      (∀ item ∈ items, Decides predicate item) ∧ kept = items.filter (accepts predicate) := by
  induction items generalizing kept with
  | nil => simp [keep, eq_comm]
  | cons item rest ih =>
      rw [List.forall_mem_cons]
      cases hitem : predicate item with
      | error e =>
          have hopen : ¬Decides predicate item := fun ⟨answer, h⟩ => nomatch hitem.symm.trans h
          simp [keep, hitem, hopen, bind, Except.bind]
      | ok answer =>
          have hdecides : Decides predicate item := ⟨answer, hitem⟩
          cases hrest : keep predicate rest with
          | error e =>
              have hopen : ¬∀ item ∈ rest, Decides predicate item := fun hall =>
                nomatch hrest.symm.trans (ih.mpr ⟨hall, rfl⟩)
              simp only [keep, hitem, hrest, hopen, bind, Except.bind, reduceCtorEq, and_false,
                false_and]
          | ok others =>
              obtain ⟨hall, rfl⟩ := ih.mp hrest
              have hstep : keep predicate (item :: rest) =
                  .ok (List.filter (accepts predicate) (item :: rest)) := by
                rw [keep, hitem, hrest, List.filter_cons, accepts_of_evaluate hitem]
                rfl
              rw [hstep, Except.ok.injEq, eq_comm]
              exact (and_iff_right ⟨hdecides, hall⟩).symm

/-- Where the predicate always has a value, the universal loop tests all items. -/
theorem every_eq (h : ∀ item ∈ items, Decides predicate item) :
    every predicate items = .ok (items.all (accepts predicate)) := by
  induction items with
  | nil => rfl
  | cons item rest ih =>
      obtain ⟨⟨answer, hitem⟩, hrest⟩ := List.forall_mem_cons.mp h
      rw [every, hitem, ih hrest, List.all_cons, accepts_of_evaluate hitem]
      cases hanswer : answer.truthy <;> simp [hanswer, bind, Except.bind, pure, Except.pure]

/-- Where the predicate always has a value, the existential loop tests all items. -/
theorem exists?_eq (h : ∀ item ∈ items, Decides predicate item) :
    exists? predicate items = .ok (items.any (accepts predicate)) := by
  induction items with
  | nil => rfl
  | cons item rest ih =>
      obtain ⟨⟨answer, hitem⟩, hrest⟩ := List.forall_mem_cons.mp h
      rw [exists?, hitem, ih hrest, List.any_cons, accepts_of_evaluate hitem]
      cases hanswer : answer.truthy <;> simp [hanswer, bind, Except.bind, pure, Except.pure]

end Loops

/-! ## The standard operators -/

section Standard

open Operator (keep every exists?)

variable {list predicate data value : Json}

theorem standard_looksUp : Operators.standard.LooksUp :=
  Operators.looksUp_of_var Operators.find?_standard_var

/-- The standard collections are evaluated. -/
theorem standard_collection (h : evaluate .standard list data = .ok value)
    (args : List Json) :
    Operator.collection (evaluator .standard) (list :: args) data = .ok (itemsOf value) := by
  rw [collection_evaluator standard_looksUp, h]
  rfl

theorem evaluate_filter (list predicate data : Json) :
    evaluate .standard (binaryCall "filter" list predicate) data =
      (evaluate .standard list data).bind fun value =>
        (keep (evaluate .standard predicate) (itemsOf value)).map .arr := by
  have hfind : Operators.standard.find? "filter" = some Operator.filterItems := rfl
  rw [evaluate_standardCall hfind, Operator.filterItems, collection_evaluator standard_looksUp]
  cases evaluate .standard list data <;> rfl

theorem evaluate_some (h : evaluate .standard list data = .ok value) (predicate : Json) :
    evaluate .standard (binaryCall "some" list predicate) data =
      (exists? (evaluate .standard predicate) (itemsOf value)).map .bool := by
  have hfind : Operators.standard.find? "some" = some Operator.holdsForSome := rfl
  rw [evaluate_standardCall hfind, Operator.holdsForSome, standard_collection h]
  rfl

theorem evaluate_none (h : evaluate .standard list data = .ok value) (predicate : Json) :
    evaluate .standard (binaryCall "none" list predicate) data =
      (exists? (evaluate .standard predicate) (itemsOf value)).map fun found => .bool !found := by
  have hfind : Operators.standard.find? "none" = some Operator.holdsForNone := rfl
  rw [evaluate_standardCall hfind, Operator.holdsForNone, standard_collection h]
  rfl

theorem evaluate_all (h : evaluate .standard list data = .ok value) (predicate : Json) :
    evaluate .standard (binaryCall "all" list predicate) data =
      if (itemsOf value).isEmpty then .ok (.bool false)
      else (every (evaluate .standard predicate) (itemsOf value)).map .bool := by
  have hfind : Operators.standard.find? "all" = some Operator.holdsForAll := rfl
  rw [evaluate_standardCall hfind, Operator.holdsForAll, standard_collection h]
  rfl

/-- A filter has a value just if its list has one and its predicate has one for each item. -/
theorem evaluate_filter_eq_ok_iff {kept : Json} :
    evaluate .standard (binaryCall "filter" list predicate) data = .ok kept ↔
      ∃ value, evaluate .standard list data = .ok value ∧
        (∀ item ∈ itemsOf value, Decides (evaluate .standard predicate) item) ∧
        kept = .arr ((itemsOf value).filter (accepts (evaluate .standard predicate))) := by
  rw [evaluate_filter]
  cases evaluate .standard list data with
  | error e => simp [Except.bind]
  | ok value =>
      simp only [Except.bind, Except.ok.injEq, exists_eq_left']
      constructor
      · intro h
        cases hkeep : keep (evaluate .standard predicate) (itemsOf value) with
        | error e => exact nomatch hkeep ▸ h
        | ok items =>
            obtain ⟨hall, rfl⟩ := keep_eq_ok_iff.mp hkeep
            rw [hkeep] at h
            exact ⟨hall, (Except.ok.inj h).symm⟩
      · rintro ⟨hall, rfl⟩
        rw [keep_eq_ok_iff.mpr ⟨hall, rfl⟩]
        rfl

/-- **Filters and quantifiers.**  Where a filter has a value, it is the list of the items for which
the predicate is true, in their order, and filtering once more changes nothing.  Whether any item is
left decides `some` and `none`, and whether items are left and all of them decides `all`; none of
them fails. -/
theorem filter_decides_quantifiers {list predicate data kept : Json}
    (h : evaluate .standard (binaryCall "filter" list predicate) data = .ok kept) :
    ∃ value items, evaluate .standard list data = .ok value ∧ kept = .arr items ∧
      items = (itemsOf value).filter (accepts (evaluate .standard predicate)) ∧
      items.Sublist (itemsOf value) ∧
      evaluate .standard (binaryCall "filter" (binaryCall "filter" list predicate) predicate) data =
        .ok kept ∧
      evaluate .standard (binaryCall "some" list predicate) data = .ok (.bool !items.isEmpty) ∧
      evaluate .standard (binaryCall "none" list predicate) data = .ok (.bool items.isEmpty) ∧
      evaluate .standard (binaryCall "all" list predicate) data =
        .ok (.bool (!items.isEmpty && items.length == (itemsOf value).length)) := by
  obtain ⟨value, hlist, hdecides, rfl⟩ := evaluate_filter_eq_ok_iff.mp h
  generalize haccepts : accepts (evaluate .standard predicate) = accepts at h
  have hany : (itemsOf value).any accepts = !((itemsOf value).filter accepts).isEmpty := by
    rw [Bool.eq_iff_iff]
    simp
  have hall : (itemsOf value).all accepts =
      (((itemsOf value).filter accepts).length == (itemsOf value).length) := by
    rw [Bool.eq_iff_iff]
    simp
  refine ⟨value, _, hlist, rfl, rfl, List.filter_sublist, ?_, ?_, ?_, ?_⟩
  · refine evaluate_filter_eq_ok_iff.mpr ⟨_, h, fun item hitem => ?_, ?_⟩
    · exact hdecides item (List.mem_filter.mp hitem).1
    · rw [haccepts, itemsOf, List.filter_filter]
      simp
  · rw [evaluate_some hlist, exists?_eq hdecides, haccepts, hany]
    rfl
  · rw [evaluate_none hlist, exists?_eq hdecides, haccepts, hany, Except.map, Bool.not_not]
  · rw [evaluate_all hlist, every_eq hdecides, haccepts, hall]
    generalize (itemsOf value).filter accepts = kept
    cases itemsOf value with
    | nil => cases kept <;> rfl
    | cons item rest => cases kept <;> rfl

/-- Whether a member of the data with a name is not there or untrue. -/
def lacks (name : String) : Json := .obj [("!", .obj [("var", .str name)])]

def doorData : Json :=
  .obj [("doors", .arr [.obj [("open", .bool true)], .str "open", .obj [("locked", .null)], .null])]

theorem filter_decides_quantifiers_closedDoors :
    let doors : Json := .obj [("var", .str "doors")]
    let kept : Json := .arr [.str "open", .obj [("locked", .null)], .null]
    evaluate .standard (binaryCall "filter" doors (lacks "open")) doorData = .ok kept ∧
    evaluate .standard (binaryCall "filter" (binaryCall "filter" doors (lacks "open"))
      (lacks "open")) doorData = .ok kept ∧
    evaluate .standard (binaryCall "some" doors (lacks "open")) doorData = .ok (.bool true) ∧
    evaluate .standard (binaryCall "none" doors (lacks "open")) doorData = .ok (.bool false) ∧
    evaluate .standard (binaryCall "all" doors (lacks "open")) doorData = .ok (.bool false) := by
  intro doors kept
  have hkept : evaluate .standard (binaryCall "filter" doors (lacks "open")) doorData = .ok kept :=
    rfl
  obtain ⟨value, items, hvalue, hitems, -, -, hagain, hsome, hnone, hall⟩ :=
    filter_decides_quantifiers hkept
  obtain rfl := Json.arr.inj hitems
  obtain rfl := Except.ok.inj hvalue
  exact ⟨hkept, hagain, hsome, hnone, hall⟩

end Standard

end Expr
end EntityRules
