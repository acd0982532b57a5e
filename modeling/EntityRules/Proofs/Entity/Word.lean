import EntityRules.Entity.Word
import Mathlib.Data.List.Sort

/-!
# The ones of a word

The loop that takes the ones off a word one after another is compared with a look at every bit.
The lowest one lies at the number of trailing zeros, and clearing it leaves every other bit as it
is.  So a round lists one place and leaves a word whose ones lie above that place, and as many
rounds as the word has bits list them all.

**Results.**
* `Word.trailingZeros_eq_ctz`: the zeros below the lowest one.
* `Word.getLsbD_clearLowest`: the bits after one round.
* `Word.ones_eq_filter`: the loop lists the places of the ones in ascending order.
* `Word.toNat_cpop_eq`: the population count is the number of rounds that the loop makes.
-/

namespace EntityRules
namespace Word

variable {w : Word} {i : Nat}

section Lowest

theorem exists_getLsbD (h : w ≠ 0) : ∃ i, w.getLsbD i = true := by
  refine by_contra fun hnone => h (BitVec.eq_of_getLsbD_eq fun i _ => ?_)
  have hzero : w.getLsbD i = false := Bool.eq_false_iff.mpr fun hi => hnone ⟨i, hi⟩
  exact hzero.trans BitVec.getLsbD_zero.symm

/-- There is a one at the number of trailing zeros. -/
theorem getLsbD_trailingZeros (h : w ≠ 0) : w.getLsbD w.trailingZeros = true := by
  obtain ⟨i, hi⟩ := exists_getLsbD h
  have hfound : (List.range wordBits).findIdx w.getLsbD < (List.range wordBits).length :=
    List.findIdx_lt_length_of_exists ⟨i, List.mem_range.mpr (BitVec.lt_of_getLsbD hi), hi⟩
  have hone := List.findIdx_getElem (w := hfound)
  rwa [List.getElem_range] at hone

/-- There is no one below the number of trailing zeros. -/
theorem getLsbD_of_lt_trailingZeros (h : i < w.trailingZeros) : w.getLsbD i = false := by
  have hzero := List.not_of_lt_findIdx h
  rwa [List.getElem_range] at hzero

/-- A one lies at the number of trailing zeros or above. -/
theorem trailingZeros_le (h : w.getLsbD i = true) : w.trailingZeros ≤ i := by
  refine Nat.le_of_not_lt fun hlt => ?_
  rw [getLsbD_of_lt_trailingZeros hlt] at h
  exact Bool.false_ne_true h

/-- The zeros are those that are counted in bit vectors. -/
theorem trailingZeros_eq_ctz (h : w ≠ 0) : w.trailingZeros = w.ctz.toNat := by
  refine Nat.le_antisymm (trailingZeros_le (BitVec.getLsbD_true_ctz_of_ne_zero h)) ?_
  refine Nat.le_of_not_lt fun hlt => ?_
  have hzero := BitVec.getLsbD_false_of_lt_ctz hlt
  rw [getLsbD_trailingZeros h] at hzero
  exact Bool.false_ne_true hzero.symm

/-- An `and` with the predecessor clears the lowest one bit of a number and no other. -/
theorem testBit_and_pred {n k : Nat} (hone : n.testBit k = true)
    (hzeros : ∀ j < k, n.testBit j = false) (i : Nat) :
    (n &&& (n - 1)).testBit i = (n.testBit i && decide (i ≠ k)) := by
  have hlow : n % 2 ^ (k + 1) = 2 ^ k := by
    refine Nat.eq_of_testBit_eq fun j => ?_
    rw [Nat.testBit_mod_two_pow, Nat.testBit_two_pow]
    rcases Nat.lt_trichotomy j k with hj | rfl | hj
    · simp [hzeros j hj, Nat.ne_of_gt hj]
    · simp [hone]
    · simp [Nat.ne_of_lt hj, Nat.not_lt_of_le hj]
  have hsplit : n = 2 ^ (k + 1) * (n / 2 ^ (k + 1)) + 2 ^ k := by
    rw [← hlow, Nat.div_add_mod]
  have hpos : 0 < 2 ^ k := Nat.two_pow_pos k
  have hpred : n - 1 = 2 ^ (k + 1) * (n / 2 ^ (k + 1)) + (2 ^ k - 1) := by
    omega
  have hlt : 2 ^ k < 2 ^ (k + 1) := Nat.pow_lt_pow_right (by decide) (Nat.lt_succ_self k)
  have hrest : 2 ^ k - 1 < 2 ^ (k + 1) := by
    omega
  rw [Nat.testBit_and, hpred, Nat.testBit_two_pow_mul_add _ hrest, Nat.testBit_two_pow_sub_one]
  -- above the lowest one the two numbers have the same bits
  by_cases hi : i < k + 1
  · rw [if_pos hi]
    rcases Nat.lt_or_eq_of_le (Nat.le_of_lt_succ hi) with hbelow | rfl
    · simp [hzeros i hbelow]
    · simp
  · have hcopy : n.testBit i = (n / 2 ^ (k + 1)).testBit (i - (k + 1)) := by
      conv_lhs => rw [hsplit]
      rw [Nat.testBit_two_pow_mul_add _ hlt, if_neg hi]
    have hne : i ≠ k := by omega
    rw [if_neg hi, ← hcopy, Bool.and_self, decide_eq_true hne, Bool.and_true]

/-- One round clears the lowest one and leaves every other bit as it is. -/
theorem getLsbD_clearLowest (h : w ≠ 0) (i : Nat) :
    w.clearLowest.getLsbD i = (w.getLsbD i && decide (i ≠ w.trailingZeros)) := by
  have hpos : 1 ≤ w.toNat :=
    Nat.pos_of_ne_zero fun hzero => h (BitVec.eq_of_toNat_eq hzero)
  have hpred : (w - 1).toNat = w.toNat - 1 :=
    BitVec.toNat_sub_of_le (BitVec.le_def.mpr hpos)
  have hbits := testBit_and_pred (getLsbD_trailingZeros h)
    (fun j hj => getLsbD_of_lt_trailingZeros hj) i
  rwa [← hpred, ← BitVec.toNat_and] at hbits

end Lowest

section Loop

theorem mem_of_mem_onesWithin {rounds : Nat} (h : i ∈ onesWithin rounds w) :
    w.getLsbD i = true := by
  induction rounds generalizing w with
  | zero => cases h
  | succ rounds ih =>
      rw [onesWithin] at h
      split at h
      · cases h
      · next hw =>
        rcases List.mem_cons.mp h with rfl | hrest
        · exact getLsbD_trailingZeros hw
        · have hone := ih hrest
          rw [getLsbD_clearLowest hw, Bool.and_eq_true] at hone
          exact hone.1

/-- The loop lists every one that lies no further below the top than it has rounds. -/
theorem mem_onesWithin {rounds : Nat}
    (hrounds : ∀ i, w.getLsbD i = true → wordBits ≤ i + rounds) :
    i ∈ onesWithin rounds w ↔ w.getLsbD i = true := by
  refine ⟨mem_of_mem_onesWithin, fun hone => ?_⟩
  induction rounds generalizing w with
  | zero => exact absurd (BitVec.lt_of_getLsbD hone) (Nat.not_lt_of_le (hrounds i hone))
  | succ rounds ih =>
      have hw : w ≠ 0 := by
        rintro rfl
        exact Bool.false_ne_true (BitVec.getLsbD_zero.symm.trans hone)
      rw [onesWithin, if_neg hw, List.mem_cons]
      refine or_iff_not_imp_left.mpr fun hne => ih (fun j hj => ?_) ?_
      · -- the ones that are left lie above the one that has been cleared
        rw [getLsbD_clearLowest hw, Bool.and_eq_true, decide_eq_true_eq] at hj
        have habove := trailingZeros_le hj.1
        have hroom := hrounds _ (getLsbD_trailingZeros hw)
        have hne := hj.2
        omega
      · rw [getLsbD_clearLowest hw, hone, decide_eq_true hne, Bool.and_self]

theorem onesWithin_pairwise (rounds : Nat) (w : Word) :
    (onesWithin rounds w).Pairwise (· < ·) := by
  induction rounds generalizing w with
  | zero => exact List.Pairwise.nil
  | succ rounds ih =>
      rw [onesWithin]
      split
      · exact List.Pairwise.nil
      · next hw =>
        refine List.pairwise_cons.mpr ⟨fun j hj => ?_, ih _⟩
        have hone := mem_of_mem_onesWithin hj
        rw [getLsbD_clearLowest hw, Bool.and_eq_true, decide_eq_true_eq] at hone
        exact Nat.lt_of_le_of_ne (trailingZeros_le hone.1) (Ne.symm hone.2)

theorem mem_ones : i ∈ w.ones ↔ w.getLsbD i = true :=
  mem_onesWithin fun _ _ => Nat.le_add_left _ _

/-- The loop lists the places of the ones in ascending order. -/
theorem ones_eq_filter (w : Word) : w.ones = (List.range wordBits).filter w.getLsbD := by
  have hsorted : ((List.range wordBits).filter w.getLsbD).Pairwise (· < ·) :=
    List.pairwise_lt_range.filter _
  refine (onesWithin_pairwise wordBits w).eq_of_mem_iff hsorted fun i => ?_
  rw [List.mem_filter, List.mem_range]
  exact mem_ones.trans ⟨fun h => ⟨BitVec.lt_of_getLsbD h, h⟩, And.right⟩

theorem cpopNatRec_eq_countP (w : Word) (n : Nat) :
    w.cpopNatRec n 0 = (List.range n).countP w.getLsbD := by
  induction n with
  | zero => rfl
  | succ n ih =>
      rw [BitVec.cpopNatRec_succ, BitVec.cpopNatRec_eq, ih, List.range_succ, List.countP_append,
        List.countP_singleton, Nat.zero_add]
      cases w.getLsbD n <;> rfl

/-- The population count is the number of places that the loop lists. -/
theorem toNat_cpop_eq (w : Word) : w.cpop.toNat = w.ones.length := by
  rw [BitVec.toNat_cpop, cpopNatRec_eq_countP, ones_eq_filter, List.countP_eq_length_filter]

end Loop

end Word
end EntityRules
