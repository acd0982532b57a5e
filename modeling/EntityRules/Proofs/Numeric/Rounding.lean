import EntityRules.Numeric.Binary
import Mathlib.Algebra.Order.Field.Power
import Mathlib.Data.Nat.Log
import Mathlib.Tactic.FieldSimp
import Mathlib.Tactic.Linarith
import Mathlib.Tactic.NormNum
import Mathlib.Tactic.Positivity
import Mathlib.Tactic.Ring

/-!
# Rounding leaves the numbers of a format alone

A number of a format has a mantissa below `2 ^ precision` and an exponent between the least and
the greatest of the format.  Each such number is written in one canonical way: with the least
exponent, or with a mantissa that uses all bits.  That is the form in which `Binary.ofBits?`
reads a bit pattern, and `Format.magnitude` finds it again from any ratio of the same value.

**Results.**
* `exponentFor_fits`: the exponent that is chosen is the least at which the ratio fits.
* `Canonical.ofBits?_toBits`, `Canonical.toBits_eq`: on canonical numbers, patterns and numbers
  are two notations of one thing.
* `exists_ofBits?_toBits`: a value that a format holds is written in it without loss.
* `isSome_ofBits?_toBits`: a value in the range of a format is written as a finite number.
-/

namespace EntityRules
namespace Numeric

variable {f : Format} {num den m : Nat} {e e' : Int} {v : ℚ} {a b : Binary}

section Ratios

theorem powerOfTwo_eq (n : Nat) : powerOfTwo n = 2 ^ n := Nat.one_shiftLeft n

theorem shiftRatio_pos (num : Nat) (hden : 0 < den) (e : Int) : 0 < (shiftRatio num den e).2 := by
  cases e with
  | ofNat n => exact Nat.mul_pos hden (powerOfTwo_eq n ▸ Nat.two_pow_pos n)
  | negSucc n => exact hden

/-- Shifting a ratio divides it by a power of two. -/
theorem shiftRatio_eq (num den : Nat) (e : Int) :
    ((shiftRatio num den e).1 : ℚ) / (shiftRatio num den e).2 = num / den / 2 ^ e := by
  cases e with
  | ofNat n => simp [shiftRatio, powerOfTwo_eq, div_div]
  | negSucc n =>
      simp only [shiftRatio, powerOfTwo_eq, Nat.cast_mul, Nat.cast_pow, Nat.cast_ofNat,
        zpow_negSucc, div_inv_eq_mul]
      ring

theorem shiftRatio_lt_iff (num : Nat) (hden : 0 < den) (e : Int) :
    (shiftRatio num den e).1 < (shiftRatio num den e).2 ↔ (num : ℚ) / den < 2 ^ e := by
  have hpos : (0 : ℚ) < (shiftRatio num den e).2 := Nat.cast_pos.mpr (shiftRatio_pos num hden e)
  have htwo : (0 : ℚ) < 2 ^ e := zpow_pos two_pos e
  rw [← div_lt_one htwo, ← shiftRatio_eq, div_lt_one hpos, Nat.cast_lt]

/-- An integral quotient is its own nearest integer. -/
theorem nearestEven_eq (hden : 0 < den) (h : (num : ℚ) / den = m) : nearestEven num den = m := by
  have hnum : num = m * den := by
    rw [div_eq_iff (Nat.cast_ne_zero.mpr hden.ne')] at h
    exact_mod_cast h
  have hquotient : num / den = m := by rw [hnum, Nat.mul_div_cancel m hden]
  have hrest : num % den = 0 := by rw [hnum, Nat.mul_mod_left]
  simp [nearestEven, hquotient, hrest, hden]

end Ratios

section Exponents

namespace Format

/-- The least exponent of the format at which a size needs no more than the precision. -/
structure Fits (f : Format) (v : ℚ) (e : Int) : Prop where
  least : f.minExponent ≤ e
  below : v < 2 ^ (e + f.precision)
  tight : e = f.minExponent ∨ 2 ^ (e + f.precision - 1) ≤ v

theorem Fits.le (h : f.Fits v e) (h' : f.Fits v e') : e ≤ e' := by
  rcases h.tight with hmin | htight
  · exact hmin ▸ h'.least
  · have hlt := lt_of_le_of_lt htight h'.below
    rw [zpow_lt_zpow_iff_right₀ one_lt_two] at hlt
    omega

theorem Fits.unique (h : f.Fits v e) (h' : f.Fits v e') : e = e' :=
  le_antisymm (h.le h') (h'.le h)

end Format

/-- The lengths of numerator and denominator give the size of a ratio up to a factor of four. -/
theorem ratio_bounds (hnum : num ≠ 0) (hden : 0 < den) :
    (2 : ℚ) ^ ((num.log2 : Int) - den.log2 - 1) ≤ num / den ∧
      (num : ℚ) / den < 2 ^ ((num.log2 : Int) - den.log2 + 1) := by
  have htwo : (2 : ℚ) ≠ 0 := two_ne_zero
  have hdenpos : (0 : ℚ) < den := Nat.cast_pos.mpr hden
  have hnumLow : (2 : ℚ) ^ (num.log2 : Int) ≤ num := by
    exact_mod_cast Nat.log2_self_le hnum
  have hnumHigh : (num : ℚ) < 2 ^ ((num.log2 : Int) + 1) := by
    exact_mod_cast Nat.lt_log2_self
  have hdenLow : (2 : ℚ) ^ (den.log2 : Int) ≤ den := by
    exact_mod_cast Nat.log2_self_le hden.ne'
  have hdenHigh : (den : ℚ) < 2 ^ ((den.log2 : Int) + 1) := by
    exact_mod_cast Nat.lt_log2_self
  constructor
  · rw [le_div_iff₀ hdenpos]
    calc (2 : ℚ) ^ ((num.log2 : Int) - den.log2 - 1) * den
        ≤ 2 ^ ((num.log2 : Int) - den.log2 - 1) * 2 ^ ((den.log2 : Int) + 1) := by gcongr
      _ = 2 ^ (num.log2 : Int) := by rw [← zpow_add₀ htwo]; congr 1; omega
      _ ≤ num := hnumLow
  · rw [div_lt_iff₀ hdenpos]
    calc (num : ℚ) < 2 ^ ((num.log2 : Int) + 1) := hnumHigh
      _ = 2 ^ ((num.log2 : Int) - den.log2 + 1) * 2 ^ (den.log2 : Int) := by
          rw [← zpow_add₀ htwo]; congr 1; omega
      _ ≤ 2 ^ ((num.log2 : Int) - den.log2 + 1) * den := by gcongr

/-- The exponent that is chosen is the least at which the ratio fits. -/
theorem exponentFor_fits (f : Format) (num : Nat) (hden : 0 < den) :
    f.Fits ((num : ℚ) / den) (f.exponentFor num den) := by
  by_cases hnum : num = 0
  · have hzero : (num : ℚ) / den = 0 := by simp [hnum]
    rw [hzero, Format.exponentFor, if_pos hnum]
    exact ⟨le_refl _, zpow_pos two_pos _, Or.inl rfl⟩
  · obtain ⟨hlow, hhigh⟩ := ratio_bounds hnum hden
    generalize hguess : max ((num.log2 : Int) - den.log2 - f.precision) f.minExponent = guess
    have hmin : f.minExponent ≤ guess := hguess ▸ le_max_right _ _
    have hbits : (num.log2 : Int) - den.log2 - f.precision ≤ guess := hguess ▸ le_max_left _ _
    simp only [Format.exponentFor, if_neg hnum, hguess, shiftRatio_lt_iff num hden]
    split
    · next hbelow =>
        refine ⟨hmin, hbelow, ?_⟩
        rcases max_choice ((num.log2 : Int) - den.log2 - f.precision) f.minExponent with h | h
        · right
          have hexp : guess + f.precision - 1 = (num.log2 : Int) - den.log2 - 1 := by omega
          rw [hexp]
          exact hlow
        · exact Or.inl (hguess.symm.trans h)
    · next habove =>
        refine ⟨by omega, lt_of_lt_of_le hhigh ?_, Or.inr ?_⟩
        · exact zpow_le_zpow_right₀ one_le_two (by omega)
        · have hexp : guess + 1 + f.precision - 1 = guess + f.precision := by omega
          rw [hexp]
          exact not_lt.mp habove

/-- A ratio that the format can write is not rounded. -/
theorem magnitude_eq (hden : 0 < den) (hvalue : (num : ℚ) / den = m * 2 ^ e)
    (hfits : f.Fits (m * 2 ^ e) e) :
    f.magnitude num den =
      min ((e - f.minExponent).toNat * 2 ^ (f.precision - 1) + m) f.infinity := by
  have hexponent : f.exponentFor num den = e :=
    (hvalue ▸ exponentFor_fits f num hden).unique hfits
  have hscaled : ((shiftRatio num den e).1 : ℚ) / (shiftRatio num den e).2 = m := by
    rw [shiftRatio_eq, hvalue, mul_div_cancel_right₀ _ (zpow_ne_zero e two_ne_zero)]
  rw [Format.magnitude, hexponent, nearestEven_eq (shiftRatio_pos num hden e) hscaled,
    powerOfTwo_eq]

end Exponents

section Patterns

namespace Format

/-- The greatest exponent of a finite number of the format. -/
def maxExponent (f : Format) : Int := f.minExponent + powerOfTwo f.exponentBits - 3

/-- The bit pattern with a sign, an exponent field and a fraction. -/
def pattern (f : Format) (negative : Bool) (field fraction : Nat) : Nat :=
  field * 2 ^ (f.precision - 1) + fraction + if negative then f.signWeight else 0

theorem signWeight_eq (f : Format) :
    f.signWeight = 2 ^ f.exponentBits * 2 ^ (f.precision - 1) := by
  rw [signWeight, powerOfTwo_eq, pow_add, mul_comm]

variable {negative : Bool} {field fraction bits : Nat}

theorem field_bound (hfield : field < 2 ^ f.exponentBits)
    (hfraction : fraction < 2 ^ (f.precision - 1)) :
    field * 2 ^ (f.precision - 1) + fraction < f.signWeight := by
  have hle : (field + 1) * 2 ^ (f.precision - 1) ≤ 2 ^ f.exponentBits * 2 ^ (f.precision - 1) :=
    Nat.mul_le_mul_right _ hfield
  rw [signWeight_eq]
  rw [Nat.succ_mul] at hle
  omega

theorem exists_pattern (h : bits < 2 * f.signWeight) :
    ∃ negative field fraction, field < 2 ^ f.exponentBits ∧
      fraction < 2 ^ (f.precision - 1) ∧ bits = f.pattern negative field fraction := by
  have hidden : 0 < 2 ^ (f.precision - 1) := Nat.two_pow_pos _
  -- the bits below the sign, however it is set
  have hbelow (low : Nat) (hlow : low < f.signWeight) : ∃ field fraction,
      field < 2 ^ f.exponentBits ∧ fraction < 2 ^ (f.precision - 1) ∧
        low = field * 2 ^ (f.precision - 1) + fraction := by
    refine ⟨low / 2 ^ (f.precision - 1), low % 2 ^ (f.precision - 1), ?_,
      Nat.mod_lt _ hidden, (Nat.div_add_mod' _ _).symm⟩
    rwa [Nat.div_lt_iff_lt_mul hidden, ← signWeight_eq]
  by_cases hsign : f.signWeight ≤ bits
  · obtain ⟨field, fraction, hfield, hfraction, heq⟩ := hbelow (bits - f.signWeight) (by omega)
    refine ⟨true, field, fraction, hfield, hfraction, ?_⟩
    rw [pattern, if_pos rfl]
    omega
  · obtain ⟨field, fraction, hfield, hfraction, heq⟩ := hbelow bits (by omega)
    exact ⟨false, field, fraction, hfield, hfraction, by simpa [pattern] using heq⟩

end Format

theorem toBits_lt (f : Format) (b : Binary) : b.toBits f < 2 * f.signWeight := by
  have hinfinity : f.infinity < f.signWeight := by
    have hpos := Nat.two_pow_pos f.exponentBits
    have hlt := Nat.mul_lt_mul_of_pos_right (Nat.sub_one_lt hpos.ne')
      (Nat.two_pow_pos (f.precision - 1))
    rwa [Format.signWeight_eq, Format.infinity, powerOfTwo_eq, powerOfTwo_eq]
  have hmagnitude : f.magnitude b.ratio.1 b.ratio.2 ≤ f.infinity := Nat.min_le_right _ _
  rw [Binary.toBits]
  split <;> omega

/-- Reading a pattern takes it apart. -/
theorem ofBits?_pattern {negative : Bool} {field fraction : Nat}
    (hfield : field < 2 ^ f.exponentBits) (hfraction : fraction < 2 ^ (f.precision - 1)) :
    Binary.ofBits? f (f.pattern negative field fraction) =
      if field + 1 = 2 ^ f.exponentBits then none
      else if field = 0 then some ⟨negative, fraction, f.minExponent⟩
      else some ⟨negative, fraction + 2 ^ (f.precision - 1), f.minExponent + field - 1⟩ := by
  have hbound := Format.field_bound hfield hfraction
  have hidden : 0 < 2 ^ (f.precision - 1) := Nat.two_pow_pos _
  have hsign : decide (f.signWeight ≤ f.pattern negative field fraction) = negative := by
    cases negative <;> simp [Format.pattern, hbound]
  have hbits : f.pattern negative field fraction =
      fraction + (field + if negative then 2 ^ f.exponentBits else 0) * 2 ^ (f.precision - 1) := by
    cases negative with
    | false => simp [Format.pattern, Nat.add_comm]
    | true =>
        simp only [Format.pattern, if_true, Format.signWeight_eq, Nat.add_mul]
        omega
  have hhigh : f.pattern negative field fraction / 2 ^ (f.precision - 1) % 2 ^ f.exponentBits =
      field := by
    rw [hbits, Nat.add_mul_div_right _ _ hidden, Nat.div_eq_of_lt hfraction, Nat.zero_add]
    cases negative <;> simp [Nat.mod_eq_of_lt hfield]
  have hlow : f.pattern negative field fraction % 2 ^ (f.precision - 1) = fraction := by
    rw [hbits, Nat.add_mul_mod_self_right, Nat.mod_eq_of_lt hfraction]
  simp only [Binary.ofBits?, powerOfTwo_eq, hsign, hhigh, hlow]

end Patterns

section Canonical

namespace Binary

/-- The absolute value. -/
def size (b : Binary) : ℚ := b.mantissa * 2 ^ b.exponent

/-- The number that is meant. -/
def value (b : Binary) : ℚ := if b.negative then -b.size else b.size

theorem size_nonneg (b : Binary) : 0 ≤ b.size := by
  rw [size]
  positivity

theorem abs_value (b : Binary) : |b.value| = b.size := by
  rw [value]
  split
  · rw [abs_neg, abs_of_nonneg b.size_nonneg]
  · rw [abs_of_nonneg b.size_nonneg]

theorem ratio_pos (b : Binary) : 0 < b.ratio.2 := shiftRatio_pos _ Nat.one_pos _

theorem ratio_eq (b : Binary) : (b.ratio.1 : ℚ) / b.ratio.2 = b.size := by
  rw [ratio, shiftRatio_eq, size, Nat.cast_one, div_one, zpow_neg, div_inv_eq_mul]

end Binary

namespace Format

/-- The one form of a finite number of the format: the exponent is as small as it can be. -/
structure Canonical (f : Format) (b : Binary) : Prop where
  least : f.minExponent ≤ b.exponent
  greatest : b.exponent ≤ f.maxExponent
  small : b.mantissa < 2 ^ f.precision
  tight : b.exponent = f.minExponent ∨ 2 ^ (f.precision - 1) ≤ b.mantissa

/-- A format with a leading bit and with more than one exponent for its numbers. -/
structure Wide (f : Format) : Prop where
  precision_pos : 0 < f.precision
  two_le_exponentBits : 2 ≤ f.exponentBits

theorem double_wide : double.Wide := ⟨by decide, by decide⟩

theorem single_wide : single.Wide := ⟨by decide, by decide⟩

variable (hf : f.Wide)
include hf

theorem Wide.two_pow_precision : 2 ^ f.precision = 2 * 2 ^ (f.precision - 1) := by
  have hpos := hf.precision_pos
  rw [← pow_succ']
  congr 1
  omega

theorem Wide.four_le : 4 ≤ 2 ^ f.exponentBits :=
  Nat.pow_le_pow_right two_pos hf.two_le_exponentBits

theorem Canonical.fits (h : f.Canonical b) : f.Fits b.size b.exponent where
  least := h.least
  below := by
    rw [Binary.size, add_comm, zpow_add₀ two_ne_zero]
    have hsmall : (b.mantissa : ℚ) < 2 ^ (f.precision : Int) := by exact_mod_cast h.small
    gcongr
  tight := by
    refine h.tight.imp_right fun hfull => ?_
    have hpos := hf.precision_pos
    have hsplit : b.exponent + f.precision - 1 = ((f.precision - 1 : Nat) : Int) + b.exponent := by
      omega
    have hfull' : (2 : ℚ) ^ ((f.precision - 1 : Nat) : Int) ≤ b.mantissa := by
      exact_mod_cast hfull
    rw [Binary.size, hsplit, zpow_add₀ two_ne_zero]
    gcongr

/-- Canonical numbers of one value are one number, but for the sign of zero. -/
theorem Canonical.eq_of_size (ha : f.Canonical a) (hb : f.Canonical b) (h : a.size = b.size) :
    a.mantissa = b.mantissa ∧ a.exponent = b.exponent := by
  have hexponent : a.exponent = b.exponent :=
    (ha.fits hf).unique (h ▸ hb.fits hf)
  refine ⟨?_, hexponent⟩
  rw [Binary.size, Binary.size, hexponent] at h
  exact_mod_cast mul_right_cancel₀ (zpow_ne_zero _ two_ne_zero) h

/-- Canonical numbers of one value are equal, or they are zeros. -/
theorem Canonical.eq_or_zero (ha : f.Canonical a) (hb : f.Canonical b) (h : a.value = b.value) :
    a = b ∨ a.size = 0 ∧ b.size = 0 := by
  have hsize : a.size = b.size := by rw [← a.abs_value, h, b.abs_value]
  by_cases hzero : b.size = 0
  · exact Or.inr ⟨hsize.trans hzero, hzero⟩
  · obtain ⟨hmantissa, hexponent⟩ := ha.eq_of_size hf hb hsize
    have hsign : a.negative = b.negative := by
      rw [Binary.value, Binary.value, hsize] at h
      cases hna : a.negative <;> cases hnb : b.negative <;>
        simp_all [self_eq_neg, neg_eq_self]
    cases a
    cases b
    exact Or.inl (by simp_all)

/-- A number is written by its exponent field and the bits of its mantissa. -/
theorem Canonical.toBits_eq (hb : f.Canonical b) (hsize : a.size = b.size)
    (hsign : a.negative = b.negative) :
    a.toBits f = f.pattern b.negative (b.exponent - f.minExponent).toNat b.mantissa := by
  have hfits := hb.fits hf
  rw [Binary.size] at hfits
  have hmagnitude := magnitude_eq a.ratio_pos (a.ratio_eq.trans hsize) hfits
  have hsmall := hf.two_pow_precision ▸ hb.small
  have hleast := hb.least
  have hgreatest := hb.greatest
  rw [maxExponent, powerOfTwo_eq] at hgreatest
  have hfinite : (b.exponent - f.minExponent).toNat * 2 ^ (f.precision - 1) + b.mantissa ≤
      f.infinity := by
    have hfield : (b.exponent - f.minExponent).toNat + 2 ≤ 2 ^ f.exponentBits - 1 := by
      have hcast : ((2 ^ f.exponentBits : Nat) : Int) = 2 ^ f.exponentBits := by push_cast; rfl
      omega
    have hmul := Nat.mul_le_mul_right (2 ^ (f.precision - 1)) hfield
    rw [Nat.add_mul] at hmul
    rw [infinity, powerOfTwo_eq, powerOfTwo_eq]
    omega
  rw [Binary.toBits, hmagnitude, Nat.min_eq_left hfinite, pattern, hsign]

/-- Reading what was written. -/
theorem Canonical.ofBits?_toBits (hb : f.Canonical b) :
    Binary.ofBits? f (b.toBits f) = some b := by
  have hfour := hf.four_le
  have hsmall := hf.two_pow_precision ▸ hb.small
  have hleast := hb.least
  have hgreatest := hb.greatest
  rw [maxExponent, powerOfTwo_eq] at hgreatest
  have hcast : ((2 ^ f.exponentBits : Nat) : Int) = 2 ^ f.exponentBits := by push_cast; rfl
  rw [hb.toBits_eq hf rfl rfl]
  by_cases hfull : 2 ^ (f.precision - 1) ≤ b.mantissa
  · -- the leading bit of the mantissa counts as one more in the exponent field
    have hcarry : f.pattern b.negative (b.exponent - f.minExponent).toNat b.mantissa =
        f.pattern b.negative ((b.exponent - f.minExponent).toNat + 1)
          (b.mantissa - 2 ^ (f.precision - 1)) := by
      rw [pattern, pattern, Nat.succ_mul]
      omega
    have hexponent : f.minExponent + (((b.exponent - f.minExponent).toNat + 1 : Nat) : Int) - 1 =
        b.exponent := by
      omega
    rw [hcarry, ofBits?_pattern (by omega) (by omega), if_neg (by omega), if_neg (by omega),
      hexponent, Nat.sub_add_cancel hfull]
  · have hexponent : b.exponent = f.minExponent := hb.tight.resolve_right hfull
    rw [hexponent, Int.sub_self, Int.toNat_zero, ofBits?_pattern (by omega) (by omega),
      if_neg (by omega), if_pos rfl, ← hexponent]

/-- The two zeros and their patterns. -/
theorem Canonical.toBits_eq_zero_iff (hb : f.Canonical b) (negative : Bool) :
    b.toBits f = (if negative then f.signWeight else 0) ↔ b.negative = negative ∧ b.size = 0 := by
  have hfour := hf.four_le
  have hpattern : f.pattern negative 0 0 = if negative then f.signWeight else 0 := by
    simp [pattern]
  constructor
  · intro hbits
    have hread := hb.ofBits?_toBits hf
    rw [hbits, ← hpattern, ofBits?_pattern (by omega) (Nat.two_pow_pos _), if_neg (by omega),
      if_pos rfl] at hread
    obtain rfl := Option.some.inj hread
    exact ⟨rfl, by simp [Binary.size]⟩
  · rintro ⟨rfl, hsize⟩
    have hmantissa : b.mantissa = 0 := by
      rw [Binary.size, mul_eq_zero] at hsize
      exact_mod_cast hsize.resolve_right (zpow_ne_zero _ two_ne_zero)
    have hexponent : b.exponent = f.minExponent := by
      refine hb.tight.resolve_right fun hfull => ?_
      have hpos := Nat.two_pow_pos (f.precision - 1)
      omega
    rw [hb.toBits_eq hf rfl rfl, hmantissa, hexponent, Int.sub_self, Int.toNat_zero, hpattern]

/-- Writing what was read. -/
theorem canonical_of_ofBits? {bits : Nat} (hbits : bits < 2 * f.signWeight)
    (h : Binary.ofBits? f bits = some b) : f.Canonical b ∧ b.toBits f = bits := by
  have hfour := hf.four_le
  have hpower := hf.two_pow_precision
  obtain ⟨negative, field, fraction, hfield, hfraction, rfl⟩ := exists_pattern hbits
  have hcast : ((2 ^ f.exponentBits : Nat) : Int) = 2 ^ f.exponentBits := by push_cast; rfl
  rw [ofBits?_pattern hfield hfraction] at h
  split at h
  · nomatch h
  next hfinite =>
  split at h
  · next hzero =>
      obtain rfl := Option.some.inj h
      have hcanonical : f.Canonical ⟨negative, fraction, f.minExponent⟩ := by
        refine ⟨le_refl _, ?_, by simp only [hpower]; omega, Or.inl rfl⟩
        rw [maxExponent, powerOfTwo_eq]
        simp only
        omega
      refine ⟨hcanonical, ?_⟩
      rw [hcanonical.toBits_eq hf rfl rfl, Int.sub_self, Int.toNat_zero, hzero]
  · next hnormal =>
      obtain rfl := Option.some.inj h
      have hcanonical : f.Canonical
          ⟨negative, fraction + 2 ^ (f.precision - 1), f.minExponent + field - 1⟩ := by
        refine ⟨?_, ?_, by simp only [hpower]; omega, Or.inr (Nat.le_add_left _ _)⟩
        · simp only
          omega
        · rw [maxExponent, powerOfTwo_eq]
          simp only
          omega
      obtain ⟨below, rfl⟩ : ∃ below, field = below + 1 := ⟨field - 1, by omega⟩
      have hbelow : (f.minExponent + ((below + 1 : Nat) : Int) - 1 - f.minExponent).toNat =
          below := by
        omega
      refine ⟨hcanonical, ?_⟩
      rw [hcanonical.toBits_eq hf rfl rfl, pattern, pattern, hbelow, Nat.succ_mul]
      simp only
      omega

end Format

end Canonical

section Holds

namespace Format

/-- The sizes of the finite numbers of a format. -/
def Holds (f : Format) (v : ℚ) : Prop :=
  ∃ (m : ℕ) (e : ℤ), m < 2 ^ f.precision ∧ f.minExponent ≤ e ∧ e ≤ f.maxExponent ∧ v = m * 2 ^ e

theorem Canonical.holds (h : f.Canonical b) : f.Holds b.size :=
  ⟨b.mantissa, b.exponent, h.small, h.least, h.greatest, rfl⟩

theorem Holds.mono {g : Format} (h : f.Holds v) (hprecision : f.precision ≤ g.precision)
    (hleast : g.minExponent ≤ f.minExponent) (hgreatest : f.maxExponent ≤ g.maxExponent) :
    g.Holds v := by
  obtain ⟨m, e, hsmall, hmin, hmax, rfl⟩ := h
  exact ⟨m, e, lt_of_lt_of_le hsmall (Nat.pow_le_pow_right two_pos hprecision),
    hleast.trans hmin, hmax.trans hgreatest, rfl⟩

/-- Every number of the format has its canonical form. -/
theorem Holds.exists_canonical (hf : f.Wide) (h : f.Holds v) (negative : Bool) :
    ∃ b, f.Canonical b ∧ b.size = v ∧ b.negative = negative := by
  obtain ⟨m, e, hsmall, hmin, hmax, rfl⟩ := h
  have htwo : (2 : ℚ) ≠ 0 := two_ne_zero
  obtain ⟨den, num, hden, hratio⟩ : ∃ den num : Nat, 0 < den ∧
      (num : ℚ) / den = m * 2 ^ e :=
    ⟨_, _, shiftRatio_pos m Nat.one_pos (-e), by
      rw [shiftRatio_eq, Nat.cast_one, div_one, zpow_neg, div_inv_eq_mul]⟩
  have hfits := hratio ▸ exponentFor_fits f num hden
  generalize f.exponentFor num den = least at hfits
  have hbelow : (m : ℚ) * 2 ^ e < 2 ^ (e + f.precision) := by
    have hsmall' : (m : ℚ) < 2 ^ (f.precision : Int) := by exact_mod_cast hsmall
    rw [add_comm, zpow_add₀ htwo]
    gcongr
  -- the mantissa takes over what the exponent loses
  have hle : least ≤ e := by
    rcases hfits.tight with heq | htight
    · exact heq ▸ hmin
    · have hlt := lt_of_le_of_lt htight hbelow
      rw [zpow_lt_zpow_iff_right₀ one_lt_two] at hlt
      omega
  have hshift : ((m * 2 ^ (e - least).toNat : Nat) : ℚ) * 2 ^ least = m * 2 ^ e := by
    have hexponent : e = ((e - least).toNat : Int) + least := by omega
    conv_rhs => rw [hexponent, zpow_add₀ htwo, zpow_natCast]
    push_cast
    ring
  have hpos : (0 : ℚ) < 2 ^ least := zpow_pos two_pos _
  refine ⟨⟨negative, m * 2 ^ (e - least).toNat, least⟩, ⟨hfits.least, hle.trans hmax, ?_, ?_⟩,
    hshift, rfl⟩
  · have hlt := hfits.below
    rw [← hshift, add_comm, zpow_add₀ htwo, mul_lt_mul_iff_left₀ hpos] at hlt
    exact_mod_cast hlt
  · refine hfits.tight.imp_right fun htight => ?_
    have hprecision := hf.precision_pos
    have hsplit : least + f.precision - 1 = ((f.precision - 1 : Nat) : Int) + least := by omega
    rw [← hshift, hsplit, zpow_add₀ htwo, mul_le_mul_iff_left₀ hpos] at htight
    exact_mod_cast htight

end Format

/-- A value that the format holds is written in it without loss. -/
theorem exists_ofBits?_toBits (hf : f.Wide) (h : f.Holds b.size) :
    ∃ c, Binary.ofBits? f (b.toBits f) = some c ∧ c.value = b.value := by
  obtain ⟨c, hcanonical, hsize, hsign⟩ := h.exists_canonical hf b.negative
  refine ⟨c, ?_, by rw [Binary.value, Binary.value, hsize, hsign]⟩
  rw [hcanonical.toBits_eq hf hsize.symm hsign.symm, ← hcanonical.toBits_eq hf rfl rfl]
  exact hcanonical.ofBits?_toBits hf

end Holds

section Range

theorem nearestEven_le (num den : Nat) : nearestEven num den ≤ num / den + 1 := by
  have hparity : num / den % 2 ≤ 1 := Nat.lt_succ_iff.mp (Nat.mod_lt _ two_pos)
  simp only [nearestEven]
  split
  · omega
  · split <;> omega

/-- A ratio below the greatest power of two that the format holds is not rounded to infinity. -/
theorem magnitude_lt_infinity (hf : f.Wide) (hden : 0 < den)
    (h : (num : ℚ) / den < 2 ^ (f.maxExponent + f.precision - 1)) :
    f.magnitude num den < f.infinity := by
  have hfour := Format.Wide.four_le hf
  have hpower := Format.Wide.two_pow_precision hf
  have hcast : ((2 ^ f.exponentBits : Nat) : Int) = 2 ^ f.exponentBits := by push_cast; rfl
  have hmax : f.maxExponent = f.minExponent + 2 ^ f.exponentBits - 3 := by
    rw [Format.maxExponent, powerOfTwo_eq, hcast]
  have hfits := exponentFor_fits f num hden
  rw [Format.magnitude]
  generalize f.exponentFor num den = e at hfits
  have hexponent : e < f.maxExponent := by
    rcases hfits.tight with hleast | htight
    · omega
    · have hlt := lt_of_le_of_lt htight h
      rw [zpow_lt_zpow_iff_right₀ one_lt_two] at hlt
      omega
  have hquotient : (shiftRatio num den e).1 / (shiftRatio num den e).2 < 2 ^ f.precision := by
    have hpos := shiftRatio_pos num hden e
    have hbelow := hfits.below
    rw [Nat.div_lt_iff_lt_mul hpos]
    have hratio := shiftRatio_eq num den e
    rw [add_comm, zpow_add₀ two_ne_zero, ← div_lt_iff₀ (zpow_pos two_pos e), ← hratio,
      div_lt_iff₀ (Nat.cast_pos.mpr hpos)] at hbelow
    exact_mod_cast hbelow
  have hnearest := nearestEven_le (shiftRatio num den e).1 (shiftRatio num den e).2
  have hleast := hfits.least
  have hfield : (e - f.minExponent).toNat + 2 ≤ 2 ^ f.exponentBits - 2 := by omega
  have hmul := Nat.mul_le_mul_right (2 ^ (f.precision - 1)) hfield
  have hinfinity : (2 ^ f.exponentBits - 2) * 2 ^ (f.precision - 1) < f.infinity := by
    rw [Format.infinity, powerOfTwo_eq, powerOfTwo_eq]
    exact Nat.mul_lt_mul_of_pos_right (by omega) (Nat.two_pow_pos _)
  rw [Nat.add_mul] at hmul
  simp only [powerOfTwo_eq]
  omega

/-- Such a number has a finite pattern. -/
theorem isSome_ofBits?_toBits (hf : f.Wide)
    (h : b.size < 2 ^ (f.maxExponent + f.precision - 1)) :
    (Binary.ofBits? f (b.toBits f)).isSome = true := by
  rw [← b.ratio_eq] at h
  have hlt := magnitude_lt_infinity hf b.ratio_pos h
  have hidden : 0 < 2 ^ (f.precision - 1) := Nat.two_pow_pos _
  rw [Format.infinity, powerOfTwo_eq, powerOfTwo_eq, ← Nat.div_lt_iff_lt_mul hidden] at hlt
  have hpattern : b.toBits f = f.pattern b.negative
      (f.magnitude b.ratio.1 b.ratio.2 / 2 ^ (f.precision - 1))
      (f.magnitude b.ratio.1 b.ratio.2 % 2 ^ (f.precision - 1)) := by
    rw [Binary.toBits, Format.pattern, Nat.div_add_mod']
  have hfraction := Nat.mod_lt (f.magnitude b.ratio.1 b.ratio.2) hidden
  rw [hpattern]
  generalize f.magnitude b.ratio.1 b.ratio.2 / 2 ^ (f.precision - 1) = field at hlt
  rw [ofBits?_pattern (by omega) hfraction, if_neg (by omega)]
  split <;> rfl

end Range

end Numeric
end EntityRules
