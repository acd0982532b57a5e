import EntityRules.Proofs.Numeric.Rounding
import Mathlib

/-!
# The numbers that floating-point numbers stand for

`value?` gives the rational number that a finite floating-point number stands for.  What the
two precisions have in common is that such a number is known by its bit pattern; the class
`BinaryFloat` collects this, and the theory of values is built on it once for both.

**Results.**
* `beq_iff_value?`: finite numbers are numerically equal when they stand for one rational.
* `value?_widen`, `value?_narrow`, `value?_floatOfInt`: conversions that lose nothing.
-/

namespace EntityRules
namespace Numeric

open Float.Model (UnpackedFloat)
open Float.Model.UnpackedFloat (unpackExponent isNaNBits)

variable {v w : ℚ} {b c : Binary}

section Patterns

/-- A pattern is read as a number unless its exponent field is all ones. -/
theorem isSome_ofBits?_iff (spec : Float.Model.Format) (f : Format)
    (hprecision : f.precision = spec.mantissaBitsWithoutImplicit + 1)
    (hexponent : f.exponentBits = spec.exponentBits) (w : BitVec spec.numBits) :
    (Binary.ofBits? f w.toNat).isSome = true ↔ unpackExponent w ≠ -1#_ := by
  have hfield : (unpackExponent w).toNat =
      w.toNat / 2 ^ (f.precision - 1) % 2 ^ f.exponentBits := by
    rw [Float.Model.UnpackedFloat.unpackExponent_def, BitVec.extractLsb'_toNat,
      Nat.shiftRight_eq_div_pow, hprecision, hexponent, Nat.add_sub_cancel]
  have hones : (unpackExponent w = -1#_) ↔
      (unpackExponent w).toNat + 1 = 2 ^ f.exponentBits := by
    have hpos := Nat.two_pow_pos spec.exponentBits
    rw [← BitVec.toNat_inj, BitVec.neg_one_eq_allOnes, BitVec.toNat_allOnes, hexponent]
    omega
  rw [Ne, hones, hfield]
  simp only [Binary.ofBits?, powerOfTwo_eq]
  split
  · next h => simp [h]
  · next h => split <;> simp [h]

theorem isFinite_unpack_iff (spec : Float.Model.Format) (w : BitVec spec.numBits) :
    (UnpackedFloat.unpack spec w).isFinite = true ↔ unpackExponent w ≠ -1#_ := by
  simp only [UnpackedFloat.unpack]
  split
  · next h => split <;> simp [h, UnpackedFloat.isFinite]
  · next h => split <;> [split; skip] <;> simp [h, UnpackedFloat.isFinite]

/-- Such a pattern is not replaced by that of a value that is no number. -/
theorem pack_unpack_of_ne (spec : Float.Model.Format) (hspec : 2 ≤ spec.exponentBits)
    {w : BitVec spec.numBits} (h : unpackExponent w ≠ -1#_) :
    UnpackedFloat.pack spec (UnpackedFloat.unpack spec w) = w := by
  have hnumber : ¬isNaNBits w = true := fun hnan => h (of_decide_eq_true hnan).1
  rw [Float.Model.UnpackedFloat.pack_unpack w hspec, if_neg hnumber]

end Patterns

section Floats

/-- Floating-point numbers of a format, known by their bit patterns. -/
class BinaryFloat (F : Type) [BEq F] where
  format : Format
  wide : format.Wide
  bits : F → Nat
  bits_lt (x : F) : bits x < 2 * format.signWeight
  eq_of_bits {x y : F} : bits x = bits y → x = y
  ofBits : Nat → F
  bits_ofBits {n : Nat} : n < 2 * format.signWeight →
    (Binary.ofBits? format n).isSome = true → bits (ofBits n) = n
  beq_iff {x y : F} : (Binary.ofBits? format (bits x)).isSome = true →
    (Binary.ofBits? format (bits y)).isSome = true → ((x == y) = true ↔
      bits x = bits y ∨ bits x = 0 ∧ bits y = format.signWeight ∨
        bits x = format.signWeight ∧ bits y = 0)

instance : BinaryFloat Float where
  format := double
  wide := Format.double_wide
  bits x := x.toBits.toNat
  bits_lt x := x.toBits.toNat_lt
  eq_of_bits h := Float.toBits_inj.mp (UInt64.toNat_inj.mp h)
  ofBits n := Float.ofBits (UInt64.ofNat n)
  bits_ofBits {n} hn h := by
    have hword : (UInt64.ofNat n).toNat = n := UInt64.toNat_ofNat_of_lt' hn
    rw [← hword] at h
    have hexponent := (isSome_ofBits?_iff .binary64 double rfl rfl (UInt64.ofNat n).toBitVec).mp h
    have hpack := pack_unpack_of_ne .binary64 (by decide) hexponent
    exact (congrArg BitVec.toNat hpack).trans hword
  beq_iff {x y} hx hy := by
    have hnan (z : Float) (hz : (ofFloat? z).isSome = true) : z ≠ Float.nan := by
      rintro rfl
      have hnone : (ofFloat? Float.nan).isSome = false := by decide +kernel
      rw [hnone] at hz
      nomatch hz
    have hbits (z z' : Float) : z = z' ↔ z.toBits.toNat = z'.toBits.toNat := by
      rw [UInt64.toNat_inj, Float.toBits_inj]
    have hzero : (0 : Float).toBits.toNat = 0 := by decide +kernel
    have hnegative : (-0 : Float).toBits.toNat = double.signWeight := by decide +kernel
    simp only [Float.beq_iff_ne_nan_and_eq, ne_eq, hnan x hx, hnan y hy, not_false_eq_true,
      true_and, hbits, hzero, hnegative]

instance : BinaryFloat Float32 where
  format := single
  wide := Format.single_wide
  bits x := x.toBits.toNat
  bits_lt x := x.toBits.toNat_lt
  eq_of_bits h := Float32.toBits_inj.mp (UInt32.toNat_inj.mp h)
  ofBits n := Float32.ofBits (UInt32.ofNat n)
  bits_ofBits {n} hn h := by
    have hword : (UInt32.ofNat n).toNat = n := UInt32.toNat_ofNat_of_lt' hn
    rw [← hword] at h
    have hexponent := (isSome_ofBits?_iff .binary32 single rfl rfl (UInt32.ofNat n).toBitVec).mp h
    have hpack := pack_unpack_of_ne .binary32 (by decide) hexponent
    exact (congrArg BitVec.toNat hpack).trans hword
  beq_iff {x y} hx hy := by
    have hnan (z : Float32) (hz : (ofFloat32? z).isSome = true) : z ≠ Float32.nan := by
      rintro rfl
      have hnone : (ofFloat32? Float32.nan).isSome = false := by decide +kernel
      rw [hnone] at hz
      nomatch hz
    have hbits (z z' : Float32) : z = z' ↔ z.toBits.toNat = z'.toBits.toNat := by
      rw [UInt32.toNat_inj, Float32.toBits_inj]
    have hzero : (0 : Float32).toBits.toNat = 0 := by decide +kernel
    have hnegative : (-0 : Float32).toBits.toNat = single.signWeight := by decide +kernel
    simp only [Float32.beq_iff_ne_nan_and_eq, ne_eq, hnan x hx, hnan y hy, not_false_eq_true,
      true_and, hbits, hzero, hnegative]

end Floats

section Values

variable {F : Type} [BEq F] [BinaryFloat F] {x y : F}

/-- The parts of a finite number. -/
def binary? (x : F) : Option Binary :=
  Binary.ofBits? (BinaryFloat.format F) (BinaryFloat.bits x)

/-- The rational that a finite number stands for. -/
def value? (x : F) : Option ℚ := (binary? x).map Binary.value

theorem canonical_of_binary? (h : binary? x = some b) :
    (BinaryFloat.format F).Canonical b ∧ b.toBits (BinaryFloat.format F) = BinaryFloat.bits x :=
  Format.canonical_of_ofBits? BinaryFloat.wide (BinaryFloat.bits_lt x) h

theorem bits_eq_zero_iff (h : binary? x = some b) :
    BinaryFloat.bits x = 0 ↔ b.negative = false ∧ b.size = 0 := by
  obtain ⟨hcanonical, hbits⟩ := canonical_of_binary? h
  rw [← hbits]
  exact hcanonical.toBits_eq_zero_iff BinaryFloat.wide false

theorem bits_eq_signWeight_iff (h : binary? x = some b) :
    BinaryFloat.bits x = (BinaryFloat.format F).signWeight ↔ b.negative = true ∧ b.size = 0 := by
  obtain ⟨hcanonical, hbits⟩ := canonical_of_binary? h
  rw [← hbits]
  exact hcanonical.toBits_eq_zero_iff BinaryFloat.wide true

theorem holds_of_value? (h : value? x = some v) : (BinaryFloat.format F).Holds |v| := by
  obtain ⟨b, hb, rfl⟩ := Option.map_eq_some_iff.mp h
  rw [b.abs_value]
  exact (canonical_of_binary? hb).1.holds

/-- A value that the format holds is kept by its pattern. -/
theorem value?_ofBits (h : (BinaryFloat.format F).Holds b.size) :
    value? (BinaryFloat.ofBits (b.toBits (BinaryFloat.format F)) : F) = some b.value := by
  obtain ⟨c, hread, hvalue⟩ := exists_ofBits?_toBits BinaryFloat.wide h
  have hbits := BinaryFloat.bits_ofBits (toBits_lt (BinaryFloat.format F) b) (by rw [hread]; rfl)
  rw [value?, binary?, hbits, hread, Option.map_some, hvalue]

/-- Finite numbers are numerically equal when they stand for one rational. -/
theorem beq_iff_value? (hx : value? x = some v) (hy : value? y = some w) :
    (x == y) = true ↔ v = w := by
  obtain ⟨b, hb, rfl⟩ := Option.map_eq_some_iff.mp hx
  obtain ⟨c, hc, rfl⟩ := Option.map_eq_some_iff.mp hy
  have hwide := BinaryFloat.wide (F := F)
  obtain ⟨hcanonicalB, hbitsB⟩ := canonical_of_binary? hb
  obtain ⟨hcanonicalC, hbitsC⟩ := canonical_of_binary? hc
  have hpositiveB := bits_eq_zero_iff hb
  have hnegativeB := bits_eq_signWeight_iff hb
  have hpositiveC := bits_eq_zero_iff hc
  have hnegativeC := bits_eq_signWeight_iff hc
  have hsome : (binary? x).isSome = true := by rw [hb]; rfl
  have hsome' : (binary? y).isSome = true := by rw [hc]; rfl
  rw [BinaryFloat.beq_iff hsome hsome', hpositiveB, hnegativeB, hpositiveC, hnegativeC]
  constructor
  · rintro (hbits | ⟨⟨-, hzeroB⟩, -, hzeroC⟩ | ⟨⟨-, hzeroB⟩, -, hzeroC⟩)
    · rw [BinaryFloat.eq_of_bits hbits, hc] at hb
      rw [Option.some.inj hb]
    · simp [Binary.value, hzeroB, hzeroC]
    · simp [Binary.value, hzeroB, hzeroC]
  · intro hvalue
    rcases hcanonicalB.eq_or_zero hwide hcanonicalC hvalue with rfl | ⟨hzeroB, hzeroC⟩
    · exact Or.inl (hbitsB.symm.trans hbitsC)
    · -- zeros of one sign have one pattern
      cases hsignB : b.negative <;> cases hsignC : c.negative
      · exact Or.inl ((hpositiveB.mpr ⟨hsignB, hzeroB⟩).trans
          (hpositiveC.mpr ⟨hsignC, hzeroC⟩).symm)
      · exact Or.inr (Or.inl ⟨⟨rfl, hzeroB⟩, rfl, hzeroC⟩)
      · exact Or.inr (Or.inr ⟨⟨rfl, hzeroB⟩, rfl, hzeroC⟩)
      · exact Or.inl ((hnegativeB.mpr ⟨hsignB, hzeroB⟩).trans
          (hnegativeC.mpr ⟨hsignC, hzeroC⟩).symm)

/-- A finite number is no value that is not a number. -/
theorem isNaN_of_isFinite {x : Float} (h : x.isFinite = true) : x.isNaN = false := by
  have hmodel : x.toModel.unpack.isFinite = true := h
  have hnan : x.isNaN = x.toModel.unpack.isNaN := rfl
  rw [hnan]
  cases hunpacked : x.toModel.unpack with
  | notANumber =>
      rw [hunpacked] at hmodel
      exact nomatch hmodel
  | infinity | zero | finite => rfl

/-- Numerical equality does not depend on the order, whatever is compared. -/
theorem float_beq_comm (x y : Float) : (x == y) = (y == x) := by
  rw [Bool.eq_iff_iff, Float.beq_iff_ne_nan_and_eq, Float.beq_iff_ne_nan_and_eq]
  constructor <;> (rintro ⟨hx, hy, rfl | ⟨rfl, rfl⟩ | ⟨rfl, rfl⟩⟩ <;> simp_all)

/-- The finite numbers of double precision have a value. -/
theorem isFinite_iff_value? (x : Float) : x.isFinite = true ↔ ∃ v, value? x = some v := by
  have hfinite : (binary? x).isSome = true ↔ x.isFinite = true :=
    (isSome_ofBits?_iff .binary64 double rfl rfl x.toModel.toBits.toBitVec).trans
      (isFinite_unpack_iff .binary64 x.toModel.toBits.toBitVec).symm
  rw [← hfinite, ← Option.isSome_iff_exists, value?, Option.isSome_map]

/-- The finite numbers of single precision have a value. -/
theorem single_isFinite_iff_value? (x : Float32) :
    x.isFinite = true ↔ ∃ v, value? x = some v := by
  have hfinite : (binary? x).isSome = true ↔ x.isFinite = true :=
    (isSome_ofBits?_iff .binary32 single rfl rfl x.toModel.toBits.toBitVec).trans
      (isFinite_unpack_iff .binary32 x.toModel.toBits.toBitVec).symm
  rw [← hfinite, ← Option.isSome_iff_exists, value?, Option.isSome_map]

end Values

section Conversions

/-- Every number of single precision is one of double precision. -/
theorem double_holds_of_single (h : single.Holds v) : double.Holds v :=
  h.mono (by decide) (by decide) (by decide)

theorem value?_widen {x : Float32} (h : value? x = some v) : value? (widen x) = some v := by
  have hsingle := holds_of_value? h
  obtain ⟨b, hb, rfl⟩ := Option.map_eq_some_iff.mp h
  have hread : ofFloat32? x = some b := hb
  rw [b.abs_value] at hsingle
  rw [widen, hread]
  exact value?_ofBits (double_holds_of_single hsingle)

theorem value?_narrow {x : Float} (h : value? x = some v) (hsingle : single.Holds |v|) :
    value? (narrow x) = some v := by
  obtain ⟨b, hb, rfl⟩ := Option.map_eq_some_iff.mp h
  have hread : ofFloat? x = some b := hb
  rw [b.abs_value] at hsingle
  rw [narrow, hread]
  exact value?_ofBits hsingle

theorem value?_floatOfInt {n : Int} (h : n.natAbs < 2 ^ 53) :
    value? (floatOfInt n) = some (n : ℚ) := by
  have hsize : (Binary.mk (decide (n < 0)) n.natAbs 0).size = n.natAbs := by
    rw [Binary.size, zpow_zero, mul_one]
  have hholds : double.Holds (Binary.mk (decide (n < 0)) n.natAbs 0).size :=
    ⟨n.natAbs, 0, h, by decide, by decide, rfl⟩
  have hvalue : (Binary.mk (decide (n < 0)) n.natAbs 0).value = n := by
    rw [Binary.value, hsize, Nat.cast_natAbs]
    by_cases hn : n < 0
    · simp [hn, abs_of_neg hn]
    · simp [hn, abs_of_nonneg (not_lt.mp hn)]
  rw [← hvalue]
  exact value?_ofBits hholds

/-- Words become finite numbers, also where they are rounded. -/
theorem floatOfInt_isFinite {n : Int} (h : n.natAbs < 2 ^ 64) :
    (floatOfInt n).isFinite = true := by
  generalize hnumber : Binary.mk (decide (n < 0)) n.natAbs 0 = b
  have hsize : b.size = n.natAbs := by
    rw [← hnumber, Binary.size, zpow_zero, mul_one]
  have hrange : b.size < 2 ^ (double.maxExponent + double.precision - 1) := by
    calc b.size < 2 ^ (64 : Int) := by
          rw [hsize]
          exact_mod_cast h
      _ ≤ 2 ^ (double.maxExponent + double.precision - 1) :=
          zpow_le_zpow_right₀ one_le_two (by decide)
  have hsome := isSome_ofBits?_toBits Format.double_wide hrange
  obtain ⟨c, hc⟩ := Option.isSome_iff_exists.mp hsome
  have hbits : BinaryFloat.bits (BinaryFloat.ofBits (b.toBits double) : Float) =
      b.toBits double :=
    BinaryFloat.bits_ofBits (toBits_lt double b) hsome
  have hread : binary? (BinaryFloat.ofBits (b.toBits double) : Float) = some c := by
    rw [binary?, hbits]
    exact hc
  rw [isFinite_iff_value?, floatOfInt, hnumber]
  exact ⟨c.value, congrArg (Option.map Binary.value) hread⟩

/-- The integer part of a whole number is the number. -/
theorem truncate_eq_value (h : b.isWhole = true) : (b.truncate : ℚ) = b.value := by
  have hrest : b.ratio.1 % b.ratio.2 = 0 := beq_iff_eq.mp h
  have hsize : ((b.ratio.1 / b.ratio.2 : Nat) : ℚ) = b.size := by
    rw [Nat.cast_div (Nat.dvd_of_mod_eq_zero hrest) (Nat.cast_ne_zero.mpr b.ratio_pos.ne'),
      b.ratio_eq]
  rw [Binary.truncate, Binary.value, ← hsize, ← Int.natCast_div]
  cases b.negative with
  | false => exact Int.cast_natCast _
  | true => exact (Int.cast_neg _).trans (congrArg Neg.neg (Int.cast_natCast _))

end Conversions

end Numeric
end EntityRules
