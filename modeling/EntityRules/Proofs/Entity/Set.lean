import EntityRules.Entity.Set
import EntityRules.Proofs.Entity.Word

/-!
# Sets of entities as mathematical sets

A set of entities is known by which numbers it contains.  Here every operation that the tracked
selectors use is described through `contains`, and the list of members is shown to be strictly
ascending.

The number of members is kept beside the bits.  `Counted` says that the two agree; it holds of
every set that the operations build, and it is what makes `isEmpty` mean that nothing is
contained.

**Results.**
* `mem_members`, `members_pairwise`: the members by the bits, in ascending order.
* `contains_insert`, `contains_foldl_insert`, `contains_retain`: the operations.
* `Counted.isEmpty_iff`: a counted set is empty when it contains nothing.
-/

namespace EntityRules
namespace EntitySet

variable {s : EntitySet} {e i : Nat}

section Members

theorem getLsbD_word (s : EntitySet) {word : Nat} (hi : i < wordBits) :
    (s.word word).getLsbD i = s.mask.testBit (wordBits * word + i) := by
  rw [EntitySet.word, BitVec.getLsbD_ofNat, decide_eq_true hi, Bool.true_and,
    Nat.testBit_shiftRight]

theorem mem_wordMembers {word : Nat} :
    e ∈ s.wordMembers word ↔ e / wordBits = word ∧ s.mask.testBit e = true := by
  rw [wordMembers, List.mem_map]
  constructor
  · rintro ⟨i, hone, rfl⟩
    rw [Word.mem_ones] at hone
    have hi : i < wordBits := BitVec.lt_of_getLsbD hone
    rw [getLsbD_word s hi] at hone
    refine ⟨?_, hone⟩
    rw [Nat.mul_add_div (by decide), Nat.div_eq_of_lt hi, Nat.add_zero]
  · rintro ⟨rfl, hone⟩
    have hi : e % wordBits < wordBits := Nat.mod_lt _ (by decide)
    have he : wordBits * (e / wordBits) + e % wordBits = e := Nat.div_add_mod e wordBits
    refine ⟨e % wordBits, Word.mem_ones.mpr ?_, he⟩
    rw [getLsbD_word s hi, he, hone]

theorem mem_members : e ∈ s.members ↔ s.contains e = true := by
  have key : e / wordBits < s.words ↔ e < s.bound := by
    simp only [bound, wordBits]
    omega
  simp only [members, List.mem_flatMap, List.mem_range, mem_wordMembers, contains,
    Bool.and_eq_true, decide_eq_true_eq]
  constructor
  · rintro ⟨word, hw, rfl, hb⟩
    exact ⟨key.1 hw, hb⟩
  · rintro ⟨he, hb⟩
    exact ⟨e / wordBits, key.2 he, rfl, hb⟩

theorem wordMembers_pairwise (s : EntitySet) (word : Nat) :
    (s.wordMembers word).Pairwise (· < ·) := by
  refine List.Pairwise.map _ (fun a b hab => ?_) (Word.onesWithin_pairwise wordBits _)
  omega

/-- The members are listed in strictly ascending order. -/
theorem members_pairwise (s : EntitySet) : s.members.Pairwise (· < ·) := by
  refine List.pairwise_flatMap.mpr ⟨fun word _ => s.wordMembers_pairwise word, ?_⟩
  refine List.pairwise_lt_range.imp (fun {v w} hvw a ha b hb => ?_)
  have hv := (mem_wordMembers.mp ha).1
  have hw := (mem_wordMembers.mp hb).1
  -- a lower word holds lower numbers only
  have hlt : a / wordBits < b / wordBits := by omega
  exact Nat.lt_of_not_le fun hle => Nat.not_le_of_lt hlt (Nat.div_le_div_right hle)

theorem members_nodup (s : EntitySet) : s.members.Nodup :=
  s.members_pairwise.imp (fun hlt => Nat.ne_of_lt hlt)

theorem contains_iff : s.contains e = true ↔ e < s.bound ∧ s.mask.testBit e = true := by
  rw [contains, Bool.and_eq_true, decide_eq_true_eq]

theorem admits_iff : s.admits e = true ↔ e < s.bound ∧ s.contains e = false := by
  rw [admits, Bool.and_eq_true, decide_eq_true_eq, Bool.not_eq_true']

end Members

section Operations

theorem insert_of_admits (h : s.admits e = true) :
    s.insert e = { s with mask := s.mask ||| 1 <<< e, size := s.size + 1 } := by
  rw [insert, add, if_pos h]

theorem insert_of_not_admits (h : ¬s.admits e = true) : s.insert e = s := by
  rw [insert, add, if_neg h]

/-- Adding reports whether the number is new and fits. -/
theorem snd_add (s : EntitySet) (e : Nat) : (s.add e).2 = s.admits e := by
  rw [add]
  split
  · next h => exact h.symm
  · next h => exact (Bool.not_eq_true _ ▸ h).symm

@[simp] theorem words_insert (s : EntitySet) (e : Nat) : (s.insert e).words = s.words := by
  simp only [insert, add]
  split <;> rfl

@[simp] theorem bound_insert (s : EntitySet) (e : Nat) : (s.insert e).bound = s.bound := by
  simp [bound]

theorem contains_insert :
    (s.insert e).contains i = true ↔ s.contains i = true ∨ (i = e ∧ e < s.bound) := by
  by_cases hadm : s.admits e = true
  · have he : e < s.bound := (admits_iff.mp hadm).1
    rw [contains_iff, contains_iff, bound_insert, insert_of_admits hadm, Nat.testBit_or,
      Nat.one_shiftLeft, Nat.testBit_two_pow, Bool.or_eq_true, decide_eq_true_eq,
      eq_comm (a := e)]
    constructor
    · rintro ⟨hi, hm | rfl⟩
      · exact Or.inl ⟨hi, hm⟩
      · exact Or.inr ⟨rfl, he⟩
    · rintro (⟨hi, hm⟩ | ⟨rfl, _⟩)
      · exact ⟨hi, Or.inl hm⟩
      · exact ⟨he, Or.inr rfl⟩
  · rw [insert_of_not_admits hadm]
    constructor
    · exact Or.inl
    · rintro (h | ⟨rfl, he⟩)
      · exact h
      · simpa [admits_iff, he] using hadm

theorem words_foldl_insert (l : List Nat) (s : EntitySet) :
    (l.foldl insert s).words = s.words := by
  induction l generalizing s with
  | nil => rfl
  | cons a l ih =>
      rw [List.foldl_cons, ih, words_insert]

theorem contains_foldl_insert (l : List Nat) (s : EntitySet) :
    (l.foldl insert s).contains i = true ↔
      s.contains i = true ∨ (i ∈ l ∧ i < s.bound) := by
  induction l generalizing s with
  | nil => simp
  | cons a l ih =>
      rw [List.foldl_cons, ih, contains_insert, bound_insert, List.mem_cons]
      constructor
      · rintro ((h | ⟨rfl, hi⟩) | ⟨hm, hi⟩)
        · exact Or.inl h
        · exact Or.inr ⟨Or.inl rfl, hi⟩
        · exact Or.inr ⟨Or.inr hm, hi⟩
      · rintro (h | ⟨rfl | hm, hi⟩)
        · exact Or.inl (Or.inl h)
        · exact Or.inl (Or.inr ⟨rfl, hi⟩)
        · exact Or.inr ⟨hm, hi⟩

@[simp] theorem words_clear (s : EntitySet) : s.clear.words = s.words := rfl

@[simp] theorem contains_clear (s : EntitySet) (i : Nat) : s.clear.contains i = false := by
  simp [contains, clear]

@[simp] theorem words_withCapacity (n : Nat) :
    (withCapacity n).words = (n + wordBits - 1) / wordBits := rfl

@[simp] theorem contains_withCapacity (n i : Nat) : (withCapacity n).contains i = false := by
  simp [contains, withCapacity]

/-- Every number below the capacity finds room. -/
theorem lt_bound_withCapacity {n : Nat} (h : i < n) : i < (withCapacity n).bound := by
  simp only [bound, words_withCapacity, wordBits]
  omega

@[simp] theorem words_retain (s : EntitySet) (keep : Nat → Bool) :
    (s.retain keep).words = s.words := rfl

/-- Flipping distinct bits one after another flips each of them once. -/
theorem testBit_foldl_flip (l : List Nat) (hl : l.Nodup) (mask i : Nat) :
    (l.foldl (fun mask e => mask ^^^ 1 <<< e) mask).testBit i =
      (mask.testBit i ^^ decide (i ∈ l)) := by
  induction l generalizing mask with
  | nil => simp
  | cons a l ih =>
      obtain ⟨ha, hl⟩ := List.nodup_cons.mp hl
      rw [List.foldl_cons, ih hl, Nat.testBit_xor, Nat.one_shiftLeft, Nat.testBit_two_pow]
      by_cases hia : a = i
      · subst hia
        simp [ha]
      · simp [hia, Ne.symm hia]

/-- The members that fail the test are flipped in the mask. -/
theorem testBit_mask_retain (s : EntitySet) (keep : Nat → Bool) (i : Nat) :
    (s.retain keep).mask.testBit i = (s.mask.testBit i ^^ (s.contains i && !keep i)) := by
  have hflip : (s.retain keep).mask =
      (s.members.filter (!keep ·)).foldl (fun mask e => mask ^^^ 1 <<< e) s.mask := by
    rw [List.foldl_filter]
    refine congrArg (s.members.foldl · s.mask) (funext fun mask => funext fun e => ?_)
    cases keep e <;> rfl
  have hmem : decide (i ∈ s.members.filter (!keep ·)) = (s.contains i && !keep i) := by
    rw [Bool.eq_iff_iff]
    simp [List.mem_filter, mem_members]
  rw [hflip, testBit_foldl_flip _ (s.members_nodup.filter _), hmem]

theorem contains_retain (s : EntitySet) (keep : Nat → Bool) (i : Nat) :
    (s.retain keep).contains i = (s.contains i && keep i) := by
  have hbit := s.testBit_mask_retain keep i
  simp only [contains, bound, words_retain] at hbit ⊢
  rw [hbit]
  by_cases hi : i < wordBits * s.words
  · cases s.mask.testBit i <;> cases keep i <;> simp [hi]
  · simp [hi]

end Operations

section Counts

/-- The number kept beside the bits is that of the members. -/
def Counted (s : EntitySet) : Prop := s.size = s.members.length

/-- Counting the ones of words counts the members in them. -/
theorem foldl_cpop (s : EntitySet) (words : List Nat) (size : Nat) :
    words.foldl (fun size i => size + (s.word i).cpop.toNat) size =
      size + (words.flatMap s.wordMembers).length := by
  induction words generalizing size with
  | nil => rfl
  | cons i words ih =>
      rw [List.foldl_cons, ih, List.flatMap_cons, List.length_append, wordMembers, List.length_map,
        Word.toNat_cpop_eq, Nat.add_assoc]

theorem counted_recount (s : EntitySet) : s.recount.Counted := by
  have hmembers : s.recount.members = s.members := rfl
  rw [Counted, hmembers, recount, foldl_cpop, Nat.zero_add, members]

theorem counted_of_mask_zero (words : Nat) : (⟨words, 0, 0⟩ : EntitySet).Counted := by
  have hnone : (⟨words, 0, 0⟩ : EntitySet).members = [] := by
    refine List.eq_nil_iff_forall_not_mem.mpr (fun a ha => ?_)
    simp [mem_members, contains] at ha
  simp [Counted, hnone]

theorem counted_withCapacity (n : Nat) : (withCapacity n).Counted :=
  counted_of_mask_zero _

theorem counted_clear (s : EntitySet) : s.clear.Counted :=
  counted_of_mask_zero _

theorem counted_retain (s : EntitySet) (keep : Nat → Bool) : (s.retain keep).Counted :=
  counted_recount _

/-- A number that the set admits comes to the members once. -/
theorem members_insert_perm (h : s.admits e = true) :
    (s.insert e).members.Perm (e :: s.members) := by
  obtain ⟨he, hout⟩ := admits_iff.mp h
  have hnew : e ∉ s.members := by
    simp [mem_members, hout]
  refine (List.perm_ext_iff_of_nodup (members_nodup _)
    (List.nodup_cons.mpr ⟨hnew, s.members_nodup⟩)).mpr (fun a => ?_)
  rw [mem_members, contains_insert, List.mem_cons, mem_members]
  constructor
  · rintro (ha | ⟨rfl, _⟩)
    · exact Or.inr ha
    · exact Or.inl rfl
  · rintro (rfl | ha)
    · exact Or.inr ⟨rfl, he⟩
    · exact Or.inl ha

theorem Counted.insert (hs : s.Counted) (e : Nat) : (s.insert e).Counted := by
  by_cases h : s.admits e = true
  · have hlen := (members_insert_perm h).length_eq
    have hsize : (s.insert e).size = s.size + 1 := by
      rw [insert_of_admits h]
    unfold Counted at hs ⊢
    rw [hsize, hlen, hs, List.length_cons]
  · rwa [insert_of_not_admits h]

/-- A counted set is empty exactly when it contains nothing. -/
theorem Counted.isEmpty_iff (hs : s.Counted) :
    s.isEmpty = true ↔ ∀ e, s.contains e = false := by
  unfold Counted at hs
  rw [isEmpty, beq_iff_eq, hs, List.length_eq_zero_iff, List.eq_nil_iff_forall_not_mem]
  simp [mem_members]

end Counts

end EntitySet
end EntityRules
