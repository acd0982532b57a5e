import EntityRules.Proofs.Numeric.Value
import Mathlib

/-!
# Truncation into words

A floating-point number rounded toward zero is an integer or an infinity, and what is not a number
counts as zero.  A word of 64 bits takes the nearest value that it has.

**Results.**
* `truncate_eq_towardZero`: the integer part of a number as a floor or a ceiling.
* `eq_infinite`: what is neither finite nor undefined is an infinity.
* `toInt64_cases`: truncation into a word in terms of exact truncation.
-/

namespace EntityRules
namespace Numeric

open Float.Model (UnpackedFloat)

/-! ## Integer parts -/

/-- A rational without its fraction. -/
def towardZero (v : ℚ) : Int := if 0 ≤ v then ⌊v⌋ else ⌈v⌉

namespace Binary

variable (b : Binary)

theorem floor_size : ⌊b.size⌋ = (b.ratio.1 / b.ratio.2 : Int) := by
  rw [← b.ratio_eq, Rat.floor_natCast_div_natCast]

theorem truncate_eq_towardZero : b.truncate = towardZero b.value := by
  have hsize := b.floor_size
  have hnonneg := b.size_nonneg
  rw [truncate, value, towardZero]
  cases b.negative with
  | false => simp [hnonneg, hsize]
  | true =>
      simp only [if_true]
      split
      · next hzero =>
          have hnone : b.size = 0 := by linarith
          rw [hnone, Int.floor_zero] at hsize
          rw [← hsize, hnone]
          simp
      · rw [Int.ceil_neg, hsize]

end Binary

/-! ## Infinities -/

/-- The integers with both infinities. -/
abbrev Extended := WithBot (WithTop Int)

/-- An integer among them. -/
def Extended.ofInt (n : Int) : Extended := ((n : WithTop Int) : WithBot (WithTop Int))

namespace Extended

variable (m n : Int)

theorem ofInt_add : ofInt (m + n) = ofInt m + ofInt n := rfl

theorem ofInt_max : ofInt (max m n) = max (ofInt m) (ofInt n) := by
  unfold ofInt
  norm_cast

theorem ofInt_min : ofInt (min m n) = min (ofInt m) (ofInt n) := by
  unfold ofInt
  norm_cast

theorem ofInt_lt_zero : ofInt n < 0 ↔ n < 0 := by
  unfold ofInt
  norm_cast

theorem ofInt_add_bot : ofInt m + ⊥ = ⊥ := rfl

theorem ofInt_add_top : ofInt m + ⊤ = ⊤ := rfl

end Extended

/-- What is neither finite nor undefined is an infinity. -/
theorem eq_infinite {x : Float} (hfinite : x.isFinite = false) (hnan : x.isNaN = false) :
    ∃ negative, x = infinite negative := by
  have hwhole : x.toModel.unpack.isFinite = false := hfinite
  have hnumber : x.toModel.unpack.isNaN = false := hnan
  cases hunpacked : x.toModel.unpack with
  | notANumber =>
      rw [hunpacked] at hnumber
      exact nomatch hnumber
  | zero | finite =>
      rw [hunpacked] at hwhole
      exact nomatch hwhole
  | infinity sign =>
      have hpattern : ∃ negative, (infinite negative).toModel.unpack = .infinity sign := by
        cases sign with
        | positive => exact ⟨false, rfl⟩
        | negative => exact ⟨true, rfl⟩
      obtain ⟨negative, hinfinite⟩ := hpattern
      refine ⟨negative, Float.toBits_inj.mp (UInt64.toBitVec_inj.mp ?_)⟩
      exact (UnpackedFloat.unpack_inj_of_valid x.toModel.valid
        (infinite negative).toModel.valid).mp (hunpacked.trans hinfinite.symm)

/-- A number rounded toward zero, with zero for what is not a number. -/
def truncated (x : Float) : Extended :=
  match value? x with
  | some v => .ofInt (towardZero v)
  | none => if x.isNaN then .ofInt 0 else if x < 0 then ⊥ else ⊤

/-- A word takes the nearest value that it has. -/
theorem toInt64_cases (x : Float) :
    (truncated x = ⊥ ∧ toInt64 x = minInt64) ∨ (truncated x = ⊤ ∧ toInt64 x = maxInt64) ∨
      ∃ n, truncated x = .ofInt n ∧ toInt64 x = clampInt64 n := by
  have hread : ofFloat? x = binary? x := rfl
  rw [truncated, toInt64, hread, value?]
  cases hbinary : binary? x with
  | some b => exact Or.inr (Or.inr ⟨_, rfl, congrArg clampInt64 b.truncate_eq_towardZero⟩)
  | none =>
      cases hnan : x.isNaN with
      | true => exact Or.inr (Or.inr ⟨0, rfl, rfl⟩)
      | false =>
          have hfinite : x.isFinite = false := by
            rw [← Bool.not_eq_true, isFinite_iff_value?, value?, hbinary]
            simp
          obtain ⟨negative, rfl⟩ := eq_infinite hfinite hnan
          cases negative with
          | true =>
              have hsign : signBit (infinite true) = true := by decide +kernel
              have hbelow : infinite true < 0 := by decide +kernel
              simp [hsign, hbelow]
          | false =>
              have hsign : signBit (infinite false) = false := by decide +kernel
              have habove : ¬infinite false < 0 := by decide +kernel
              simp [hsign, habove]

theorem toInt64_range (x : Float) : minInt64 ≤ toInt64 x ∧ toInt64 x ≤ maxInt64 := by
  rcases toInt64_cases x with ⟨-, h⟩ | ⟨-, h⟩ | ⟨n, -, h⟩ <;> rw [h]
  · decide
  · decide
  · simp only [clampInt64, minInt64, maxInt64]
    omega

end Numeric
end EntityRules
