import EntityRules.Proofs.Expr.Names
import EntityRules.Proofs.Numeric.Truncation

/-!
# Parts of a text

A part of a text is given by a start and a length, any two numbers.  The positions are computed in
words of 64 bits, from numbers that were cut to such words, and yet they are those of exact
arithmetic with infinities: what a word cannot hold lies beyond either end of the text.

**Results.**
* `startPosition_exact`, `endPosition_exact`: positions in words against exact positions.
* `partInWords?_eq`: no sum leaves the range, no bounds cross and no position is outside the text.
* `substr_takes_exact_part`: what the operator gives.
-/

namespace EntityRules
namespace Expr

open Numeric
open Operator (startPosition endPosition)

/-! ## Exact positions -/

/-- The first position: from the end of the text if negative, never outside it. -/
noncomputable def exactStart (length : Int) (start : Extended) : Extended :=
  if start < 0 then max (.ofInt length + start) 0 else min start (.ofInt length)

/-- The position after the part: a negative count is one from the end of the text, any other from
the first position; the part may be empty and ends in the text. -/
noncomputable def exactStop (length : Int) (first : Extended) (count : Option Float) : Extended :=
  match count with
  | none => .ofInt length
  | some n =>
    max first (min ((if n < 0 then .ofInt length else first) + truncated n) (.ofInt length))

section Positions

variable {length first : Int}

theorem startPosition_bounds (h : 0 ≤ length) (start : Int) :
    0 ≤ startPosition length start ∧ startPosition length start ≤ length := by
  rw [startPosition]
  split <;> omega

theorem endPosition_bounds (h : first ≤ length) (count : Option Float) :
    first ≤ endPosition length first count ∧ endPosition length first count ≤ length := by
  cases count with
  | none => exact ⟨h, le_refl length⟩
  | some n =>
      simp only [endPosition]
      omega

/-- The first position is exact: a start that no word holds lies outside the text. -/
theorem startPosition_exact (h : 0 ≤ length) (hword : length ≤ maxInt64) (start : Float) :
    Extended.ofInt (startPosition length (toInt64 start)) =
      exactStart length (truncated start) := by
  simp only [maxInt64] at hword
  rcases toInt64_cases start with ⟨hexact, hstart⟩ | ⟨hexact, hstart⟩ | ⟨n, hexact, hstart⟩ <;>
    rw [hexact, hstart]
  · have hfirst : startPosition length minInt64 = 0 := by
      simp only [startPosition, minInt64]
      omega
    rw [hfirst, exactStart, if_pos (by simp), Extended.ofInt_add_bot]
    rfl
  · have hfirst : startPosition length maxInt64 = length := by
      simp only [startPosition, maxInt64]
      omega
    rw [hfirst, exactStart, if_neg (by simp), min_eq_right le_top]
  · have hfirst : startPosition length (clampInt64 n) = startPosition length n := by
      simp only [startPosition, clampInt64, minInt64, maxInt64]
      omega
    rw [hfirst, exactStart, startPosition]
    simp only [Extended.ofInt_lt_zero]
    split
    · exact Extended.ofInt_max (length + n) 0
    · exact Extended.ofInt_min n length

/-- The position after the part is exact, whether it is counted from the end or from the start. -/
theorem endPosition_exact (hfirst : 0 ≤ first) (h : first ≤ length) (hword : length ≤ maxInt64)
    (count : Option Float) :
    Extended.ofInt (endPosition length first count) =
      exactStop length (.ofInt first) count := by
  cases count with
  | none => rfl
  | some n =>
      generalize horigin : (if n < 0 then length else first) = origin
      have hlow : 0 ≤ origin := by omega
      have hhigh : origin ≤ length := by omega
      have hstop : endPosition length first (some n) =
          max first (min (clampInt64 (origin + toInt64 n)) length) := by
        rw [endPosition, horigin]
      have hexact : exactStop length (.ofInt first) (some n) =
          max (.ofInt first) (min (.ofInt origin + truncated n) (.ofInt length)) := by
        rw [exactStop, ← horigin, apply_ite Extended.ofInt]
      rw [hstop, hexact]
      simp only [maxInt64] at hword
      rcases toInt64_cases n with ⟨hn, hcount⟩ | ⟨hn, hcount⟩ | ⟨k, hn, hcount⟩ <;> rw [hn, hcount]
      · -- the sum is negative, with the cut count as with the infinite one
        have hempty : max first (min (clampInt64 (origin + minInt64)) length) = first := by
          simp only [clampInt64, minInt64, maxInt64]
          omega
        rw [hempty, Extended.ofInt_add_bot, min_eq_left bot_le, max_eq_left bot_le]
      · have hrest : max first (min (clampInt64 (origin + maxInt64)) length) = length := by
          simp only [clampInt64, minInt64, maxInt64]
          omega
        rw [hrest, Extended.ofInt_add_top, min_eq_right le_top, ← Extended.ofInt_max,
          max_eq_right h]
      · have hcut : max first (min (clampInt64 (origin + clampInt64 k)) length) =
            max first (min (origin + k) length) := by
          simp only [clampInt64, minInt64, maxInt64]
          omega
        rw [hcut, Extended.ofInt_max, Extended.ofInt_min, Extended.ofInt_add]

end Positions

/-! ## Positions in words -/

/-- An integer as a word; none if it is out of range. -/
def word? (n : Int) : Option Int := if minInt64 ≤ n ∧ n ≤ maxInt64 then some n else none

/-- The number between two bounds that is nearest; none if the bounds cross. -/
def between? (low high n : Int) : Option Int :=
  if low ≤ high then some (max low (min n high)) else none

/-- The characters from one position to another; none if they are not positions in order. -/
def slice? (text : List Char) (first stop : Int) : Option (List Char) :=
  if 0 ≤ first ∧ first ≤ stop ∧ stop ≤ text.length then
    some (text.extract first.toNat stop.toNat)
  else none

/-- The first position; the sum must not leave the range. -/
def startInWords? (length start : Int) : Option Int :=
  if start < 0 then (word? (length + start)).map fun n => max n 0 else some (min start length)

/-- The position after the part; the sum takes the nearest word, the bounds must not cross. -/
def stopInWords? (length first : Int) (count : Option Float) : Option Int :=
  match count with
  | none => some length
  | some n =>
    between? first length (clampInt64 ((if n < 0 then length else first) + toInt64 n))

/-- A part of a text in words, by steps that break off where they have no result. -/
def partInWords? (text : List Char) (start count : Option Float) : Option (List Char) := do
  let length ← word? text.length
  let first ← startInWords? length (toInt64 (start.getD 0))
  let stop ← stopInWords? length first count
  slice? text first stop

section Words

variable {length first start : Int} {text : List Char}

/-- A sum of a length and a negative word is a word. -/
theorem startInWords?_eq (h : 0 ≤ length) (hword : length ≤ maxInt64) (hstart : minInt64 ≤ start) :
    startInWords? length start = some (startPosition length start) := by
  rw [startInWords?, startPosition]
  split
  · have hsum : minInt64 ≤ length + start ∧ length + start ≤ maxInt64 := by omega
    rw [word?, if_pos hsum]
    rfl
  · rfl

theorem stopInWords?_eq (h : first ≤ length) (count : Option Float) :
    stopInWords? length first count = some (endPosition length first count) := by
  cases count with
  | none => rfl
  | some n => rw [stopInWords?, between?, if_pos h, endPosition]

/-- No step breaks off, and the positions are those of the operator. -/
theorem partInWords?_eq (h : (text.length : Int) ≤ maxInt64) (start count : Option Float) :
    partInWords? text start count =
      let first := startPosition text.length (toInt64 (start.getD 0))
      let stop := endPosition text.length first count
      some (text.extract first.toNat stop.toNat) := by
  have hlength : (0 : Int) ≤ text.length := Int.natCast_nonneg _
  have hword : word? text.length = some (text.length : Int) :=
    if_pos ⟨le_trans (by decide) hlength, h⟩
  have hstart := (toInt64_range (start.getD 0)).1
  obtain ⟨hfirst, hwithin⟩ := startPosition_bounds hlength (toInt64 (start.getD 0))
  have hstop := endPosition_bounds hwithin count
  simp only [partInWords?, hword, startInWords?_eq hlength h hstart, stopInWords?_eq hwithin,
    Option.bind_eq_bind, Option.bind_some]
  exact if_pos ⟨hfirst, hstop⟩

end Words

/-! ## The operator -/

section Operators

variable {table : Operators} {argument data : Json} {values : List Json}

/-- The operator takes the part between the two positions. -/
theorem evaluate_substr
    (h : (evaluator .standard).evaluateAll (arguments argument) data = .ok values) :
    evaluate .standard (.obj [("substr", argument)]) data =
      let text := (stringify (values.getD 0 .null)).toList
      let first := startPosition text.length
        (toInt64 ((values.getD 1 .null).toNumber?.getD 0))
      let stop := endPosition text.length first (values[2]?.bind Json.toNumber?)
      .ok (.str (String.ofList ((text.drop first.toNat).take (stop - first).toNat))) := by
  have hfind : Operators.standard.find? "substr" = some Operator.substr := rfl
  rw [evaluate_call_of_confined Operators.confined_standard, apply, hfind]
  simp only [Operator.substr, h]
  rfl

/-- **Parts of a text.**  Let the arguments have values: a text, a start and perhaps a length, the
numbers being whatever the values count as, with zero for a start that is no number.  The part
begins and ends where exact arithmetic with infinities puts it, always within the text, and in words
of 64 bits no sum leaves the range, no bounds cross and no position is outside the text.  The text
has no more characters than a word counts. -/
theorem substr_takes_exact_part
    (h : (evaluator .standard).evaluateAll (arguments argument) data = .ok values)
    (hlength : ((stringify (values.getD 0 .null)).length : Int) ≤ maxInt64) :
    let text := (stringify (values.getD 0 .null)).toList
    let start := (values.getD 1 .null).toNumber?
    let count := values[2]?.bind Json.toNumber?
    ∃ first stop : Nat, first ≤ stop ∧ stop ≤ text.length ∧
      .ofInt first = exactStart text.length (truncated (start.getD 0)) ∧
      .ofInt stop = exactStop text.length (.ofInt first) count ∧
      evaluate .standard (.obj [("substr", argument)]) data =
        .ok (.str (String.ofList (text.extract first stop))) ∧
      partInWords? text start count = some (text.extract first stop) := by
  intro text start count
  have hword : (text.length : Int) ≤ maxInt64 := by rwa [String.length_toList]
  have hnonneg : (0 : Int) ≤ text.length := Int.natCast_nonneg _
  generalize hfirst : startPosition text.length (toInt64 (start.getD 0)) = first
  generalize hstop : endPosition text.length first count = stop
  obtain ⟨hlow, hwithin⟩ := hfirst ▸ startPosition_bounds hnonneg (toInt64 (start.getD 0))
  obtain ⟨horder, hend⟩ := hstop ▸ endPosition_bounds hwithin count
  have hsize : (stop - first).toNat = stop.toNat - first.toNat := by omega
  have hstart : ((first.toNat : Nat) : Int) = first := Int.toNat_of_nonneg hlow
  have hfinish : ((stop.toNat : Nat) : Int) = stop := Int.toNat_of_nonneg (le_trans hlow horder)
  refine ⟨first.toNat, stop.toNat, by omega, by omega, ?_, ?_, ?_, ?_⟩
  · rw [hstart, ← hfirst]
    exact startPosition_exact hnonneg hword (start.getD 0)
  · rw [hfinish, hstart, ← hstop]
    exact endPosition_exact hlow hwithin hword count
  · have hpart := evaluate_substr h
    dsimp only at hpart
    rw [hpart, hfirst, hstop, hsize]
  · rw [partInWords?_eq hword]
    simp only [hfirst, hstop]

/-- A text, a start before its end and an endless length. -/
def endlessPart : List Json := [.str "abc", .ofInt (-2), .str "inf"]

theorem substr_takes_exact_part_endless :
    (evaluator .standard).evaluateAll (arguments (.arr endlessPart)) .null = .ok endlessPart ∧
    ((stringify (endlessPart.getD 0 .null)).length : Int) ≤ maxInt64 ∧
    evaluate .standard (.obj [("substr", .arr endlessPart)]) .null = .ok (.str "bc") ∧
    partInWords? "abc".toList (Json.ofInt (-2)).toNumber? (Json.str "inf").toNumber? =
      some ['b', 'c'] := by
  have hvalues : (evaluator .standard).evaluateAll (arguments (.arr endlessPart)) .null =
      .ok endlessPart := rfl
  have hlength : ((stringify (endlessPart.getD 0 .null)).length : Int) ≤ maxInt64 := by decide
  have hpart : evaluate .standard (.obj [("substr", .arr endlessPart)]) .null =
      .ok (.str "bc") := by
    rfl
  obtain ⟨first, stop, -, -, -, -, heval, hwords⟩ := substr_takes_exact_part hvalues hlength
  have hchars := congrArg String.toList (Json.str.inj (Except.ok.inj (heval.symm.trans hpart)))
  rw [String.toList_ofList] at hchars
  exact ⟨hvalues, hlength, hpart, hwords.trans (congrArg some hchars)⟩

end Operators

end Expr
end EntityRules
