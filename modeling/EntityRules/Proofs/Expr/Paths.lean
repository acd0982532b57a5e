import EntityRules.Proofs.Expr.Collections
import EntityRules.Proofs.Text.Dots
import Mathlib.Data.List.Induction

/-!
# Walks along joined paths

The part of the data at two paths joined by a dot is the part at the second path of the part at the
first.  The items of a list are parts at the paths that are their indices.  So looking up a path in
each item of a list, with the item as the data, gives what the joined paths give in the whole.

**Results.**
* `readNat?_toDigits`, `index?_toString`: an index is read back from its digits.
* `lookup_append`, `lookup_index`: the two kinds of steps.
* `map_var_eq_var_paths`: the items of a list and the paths through it.
-/

namespace EntityRules

namespace Numeric

variable {c : Char} {s : List Char}

theorem digit?_of_isDigit (h : c.isDigit = true) : digit? c = some (c.toNat - '0'.toNat) := by
  obtain ⟨hlow, hhigh⟩ := Bool.and_eq_true_iff.mp h
  have hrange : '0' ≤ c ∧ c ≤ '9' := ⟨of_decide_eq_true hlow, of_decide_eq_true hhigh⟩
  rw [digit?, if_pos hrange]

/-- A row of digits is worth what it is worth as a numeral. -/
theorem valueOfDigits_eq (h : ∀ c ∈ s, c.isDigit = true) :
    valueOfDigits s = Nat.ofDigitChars 10 s 0 := by
  induction s using List.reverseRecOn with
  | nil => rfl
  | append_singleton s c ih =>
      obtain ⟨hs, hc⟩ := List.forall_mem_append.mp h
      have hdigit := digit?_of_isDigit (hc c (List.mem_singleton_self c))
      rw [valueOfDigits_append, ih hs, hdigit, Nat.ofDigitChars, Nat.ofDigitChars,
        List.foldl_append]
      rfl

/-- A number is read back from its digits. -/
theorem readNat?_toDigits (n : Nat) : readNat? (Nat.toDigits 10 n) = some n := by
  have hdigits : ∀ c ∈ Nat.toDigits 10 n, c.isDigit = true := fun c hc =>
    Nat.isDigit_of_mem_toDigits (by decide) (by decide) hc
  have hvalue : valueOfDigits (Nat.toDigits 10 n) = n := by
    rw [valueOfDigits_eq hdigits, Nat.ofDigitChars_ten_toDigits]
  have hall : (Nat.toDigits 10 n).all isDigit = true := List.all_eq_true.mpr fun c hc => by
    rw [isDigit, digit?_of_isDigit (hdigits c hc)]
    rfl
  obtain ⟨first, rest, hcons⟩ :=
    List.exists_cons_of_ne_nil (Nat.toDigits_ne_nil : Nat.toDigits 10 n ≠ [])
  rw [hcons] at hdigits hvalue hall ⊢
  have hplus : first ≠ '+' := by
    rintro rfl
    exact absurd (hdigits '+' List.mem_cons_self) (by decide)
  simp [readNat?, hplus, hall, hvalue]

end Numeric

namespace Json

variable {path rest : String} {items : List Json} {i : Nat}

theorem index?_toString (h : i < UInt64.size) : index? (toString i) = some i := by
  rw [index?, Nat.toString_eq_ofList_toDigits, String.toList_ofList, Numeric.readNat?_toDigits,
    Option.filter_some, if_pos (decide_eq_true h)]

theorem walk?_append (value : Json) (segments rest : List String) :
    value.walk? (segments ++ rest) = (value.walk? segments).bind fun part => part.walk? rest := by
  induction segments generalizing value with
  | nil => rfl
  | cons segment segments ih =>
      rw [List.cons_append, walk?, walk?]
      cases value.child? segment with
      | none => rfl
      | some next => exact ih next

theorem lookup_of_ne_empty (h : path ≠ "") (value : Json) :
    value.lookup path = value.walk? (splitAtDots path) := if_neg h

/-- The part at joined paths is the part at the second of the part at the first. -/
theorem lookup_append (hpath : path ≠ "") (hrest : rest ≠ "") (value : Json) :
    value.lookup (path ++ "." ++ rest) =
      (value.lookup path).bind fun part => part.lookup rest := by
  have hjoined : path ++ "." ++ rest ≠ "" := by simp
  simp only [lookup_of_ne_empty hjoined, lookup_of_ne_empty hpath, lookup_of_ne_empty hrest,
    splitAtDots_append, walk?_append]

/-- The path that is an index has that index as its only segment. -/
theorem splitAtDots_toString (i : Nat) : splitAtDots (toString i) = [toString i] := by
  have hdot : '.' ∉ (toString i).toList := by
    rw [Nat.toString_eq_ofList_toDigits, String.toList_ofList]
    intro hmem
    exact absurd (Nat.isDigit_of_mem_toDigits (by decide) (by decide) hmem) (by decide)
  rw [splitAtDots, Text.pieces_of_not_mem hdot, List.map_singleton, String.ofList_toList]

theorem toString_ne_empty (i : Nat) : toString i ≠ "" := by
  rw [Nat.toString_eq_ofList_toDigits]
  intro hempty
  have hdigits := congrArg String.toList hempty
  rw [String.toList_ofList] at hdigits
  exact Nat.toDigits_ne_nil hdigits

/-- The part of a list at an index is the item there. -/
theorem lookup_index (h : i < UInt64.size) (items : List Json) :
    (Json.arr items).lookup (toString i) = items[i]? := by
  rw [lookup_of_ne_empty (toString_ne_empty i), splitAtDots_toString]
  simp only [walk?, child?, index?_toString h, Option.bind_some]
  cases items[i]? <;> rfl

end Json

namespace Expr

/-- A plain look-up. -/
def varOf (path : String) : Json := .obj [("var", .str path)]

/-- A look-up gives the part of the data at its path, or null. -/
theorem evaluate_varOf (path : String) (data : Json) :
    evaluate .standard (varOf path) data = .ok ((data.lookup path).getD .null) := by
  have hplain : plainPath? (varOf path) = some path := rfl
  obtain ⟨operator, hvar, hlookup⟩ := standard_looksUp
  rw [evaluate_plain .standard hplain, apply, hvar]
  exact hlookup path data

theorem evaluate_map {list data value : Json} (h : evaluate .standard list data = .ok value)
    (body : Json) :
    evaluate .standard (binaryCall "map" list body) data =
      ((itemsOf value).mapM (evaluate .standard body)).map .arr := by
  have hfind : Operators.standard.find? "map" = some Operator.mapItems := rfl
  rw [evaluate_standardCall hfind, Operator.mapItems, standard_collection h]
  rfl

/-- **Items and paths.**  Where the data have a list at a path, mapping its items to what they have
at a second path gives a value for each item, null if it has nothing there.  The value for the item
at an index is what the data have at the first path, the index and the second path joined by dots.
Both paths may have empty segments, but neither may be empty; an index is a word of 64 bits. -/
theorem map_var_eq_var_paths {path rest : String} (hpath : path ≠ "") (hrest : rest ≠ "")
    {data : Json} {items : List Json} (h : data.lookup path = some (.arr items)) :
    ∃ values, evaluate .standard (binaryCall "map" (varOf path) (varOf rest)) data =
        .ok (.arr values) ∧
      values = items.map (fun item => (item.lookup rest).getD .null) ∧
      values.length = items.length ∧
      ∀ i (hi : i < values.length), i < UInt64.size →
        evaluate .standard (varOf (path ++ "." ++ toString i ++ "." ++ rest)) data =
          .ok values[i] := by
  have hlist : evaluate .standard (varOf path) data = .ok (.arr items) := by
    rw [evaluate_varOf, h, Option.getD_some]
  have hbody : evaluate .standard (varOf rest) =
      fun item => pure ((item.lookup rest).getD .null) :=
    funext fun item => evaluate_varOf rest item
  refine ⟨_, ?_, rfl, List.length_map _, fun i hi hword => ?_⟩
  · rw [evaluate_map hlist, hbody, itemsOf, List.mapM_pure]
    rfl
  · rw [List.length_map] at hi
    have hindexed : path ++ "." ++ toString i ≠ "" := by simp
    have hitem : data.lookup (path ++ "." ++ toString i) = some items[i] := by
      rw [Json.lookup_append hpath (Json.toString_ne_empty i), h, Option.bind_some,
        Json.lookup_index hword, List.getElem?_eq_getElem hi]
    rw [evaluate_varOf, Json.lookup_append hindexed hrest, hitem, Option.bind_some,
      List.getElem_map]

/-- Two teams, one under an empty name, with players as objects, lists and null. -/
def teamsData : Json :=
  .obj [("", .obj [("players", .arr
    [.obj [("", .obj [("hp", .bool true)])], .arr [.null, .str "hp"], .null,
      .obj [("", .obj [("hp", .arr [])])]])])]

theorem map_var_eq_var_paths_emptySegments :
    ".players" ≠ "" ∧ ".hp" ≠ "" ∧
    evaluate .standard (binaryCall "map" (varOf ".players") (varOf ".hp")) teamsData =
      .ok (.arr [.bool true, .null, .null, .arr []]) ∧
    evaluate .standard (varOf ".players.1..hp") teamsData = .ok .null ∧
    evaluate .standard (varOf ".players.3..hp") teamsData = .ok (.arr []) := by
  have hpath : ".players" ≠ "" := by decide
  have hrest : ".hp" ≠ "" := by decide
  have hlist : teamsData.lookup ".players" = some (.arr
      [.obj [("", .obj [("hp", .bool true)])], .arr [.null, .str "hp"], .null,
        .obj [("", .obj [("hp", .arr [])])]]) := by rfl
  obtain ⟨values, hmap, rfl, -, hpaths⟩ := map_var_eq_var_paths hpath hrest hlist
  exact ⟨hpath, hrest, hmap, hpaths 1 (by decide) (by decide), hpaths 3 (by decide) (by decide)⟩

end Expr
end EntityRules
