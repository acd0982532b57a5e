import EntityRules.Proofs.Entity.Set
import Mathlib.Data.Finset.Card
import Mathlib.Logic.Function.Basic
import Mathlib.Order.Bounds.Basic

/-!
# Families of sets of entities

A set of entities stands for a finite set of numbers below its bound.  The operations on it work
on the bits and on a size that is kept beside them; here each of them is the operation of the same
name on finite sets, except that what does not fit the receiver is left out.  So a family of sets,
of whatever capacities, can be replaced by a family of finite sets: after any operations on the
two families the answers have been the same and the sets stand for each other.

**Results.**
* `numbers_insert`, …, `numbers_retain`: each operation on the numbers of a set.
* `Proper.insert`, …, `Proper.retain`: each operation keeps the bits within the bound and counted.
* `Proper.denotes`: what the queries of a set say about its numbers.
* `SetAction.StandsFor.step`, `SetAction.StandsFor.run`: one operation, and all of a run.
* `sets_behave_as_finsets`: families of sets from their creation on.
-/

namespace EntityRules
namespace EntitySet

variable {s t : EntitySet} {e i : Nat}

/-! ## The numbers of a set -/

section Numbers

/-- The numbers that a set contains. -/
def numbers (s : EntitySet) : Finset Nat := s.members.toFinset

@[simp] theorem mem_numbers : e ∈ s.numbers ↔ s.contains e = true := by
  rw [numbers, List.mem_toFinset, mem_members]

theorem card_numbers (s : EntitySet) : s.numbers.card = s.members.length :=
  List.toFinset_card_of_nodup s.members_nodup

theorem lt_bound_of_contains (h : s.contains e = true) : e < s.bound :=
  (contains_iff.mp h).1

theorem numbers_withCapacity (capacity : Nat) : (withCapacity capacity).numbers = ∅ := by
  ext e
  simp

theorem numbers_clear (s : EntitySet) : s.clear.numbers = ∅ := by
  ext e
  simp

theorem numbers_insert (s : EntitySet) (e : Nat) :
    (s.insert e).numbers = if e < s.bound then Insert.insert e s.numbers else s.numbers := by
  ext i
  rw [mem_numbers, contains_insert]
  split
  · next he => rw [Finset.mem_insert, mem_numbers, or_comm, and_iff_left he]
  · next he => rw [mem_numbers, or_iff_left (fun h => he h.2)]

theorem erase_of_contains (h : s.contains e = true) :
    s.erase e = { s with mask := s.mask ^^^ 1 <<< e, size := s.size - 1 } := by
  rw [erase, drop, if_pos h]

theorem erase_of_not_contains (h : ¬s.contains e = true) : s.erase e = s := by
  rw [erase, drop, if_neg h]

/-- Dropping reports whether the number was there. -/
theorem snd_drop (s : EntitySet) (e : Nat) : (s.drop e).2 = s.contains e := by
  rw [drop]
  split
  · next h => exact h.symm
  · next h => exact (Bool.not_eq_true _ ▸ h).symm

@[simp] theorem words_erase (s : EntitySet) (e : Nat) : (s.erase e).words = s.words := by
  simp only [erase, drop]
  split <;> rfl

@[simp] theorem bound_erase (s : EntitySet) (e : Nat) : (s.erase e).bound = s.bound := by
  simp [bound]

theorem contains_erase :
    (s.erase e).contains i = true ↔ i ≠ e ∧ s.contains i = true := by
  by_cases he : s.contains e = true
  · have hbit := (contains_iff.mp he).2
    rw [contains_iff, contains_iff, bound_erase, erase_of_contains he, Nat.testBit_xor,
      Nat.one_shiftLeft, Nat.testBit_two_pow]
    by_cases hie : i = e
    · subst hie
      simp [hbit]
    · simp [hie, Ne.symm hie]
  · rw [erase_of_not_contains he]
    refine ⟨fun h => ⟨?_, h⟩, And.right⟩
    rintro rfl
    exact he h

theorem numbers_erase (s : EntitySet) (e : Nat) : (s.erase e).numbers = s.numbers.erase e := by
  ext i
  rw [Finset.mem_erase, mem_numbers, mem_numbers, contains_erase]

/-- Cutting a mask to a set keeps the bits below the bound. -/
theorem testBit_fit (s : EntitySet) (mask i : Nat) :
    (s.fit mask).testBit i = (decide (i < s.bound) && mask.testBit i) := by
  rw [fit, Nat.one_shiftLeft, Nat.testBit_mod_two_pow]

theorem contains_union :
    (s.union t).contains i = true ↔
      s.contains i = true ∨ t.mask.testBit i = true ∧ i < s.bound := by
  have hbound : (s.union t).bound = s.bound := rfl
  have hmask : (s.union t).mask = s.mask ||| s.fit t.mask := rfl
  rw [contains_iff, contains_iff, hbound, hmask, Nat.testBit_or, testBit_fit]
  by_cases hi : i < s.bound
  · simp [hi]
  · simp [hi]

theorem contains_intersect :
    (s.intersect t).contains i = true ↔ s.contains i = true ∧ t.mask.testBit i = true := by
  have hbound : (s.intersect t).bound = s.bound := rfl
  have hmask : (s.intersect t).mask = s.mask &&& t.mask := rfl
  rw [contains_iff, contains_iff, hbound, hmask, Nat.testBit_and, Bool.and_eq_true, and_assoc]

theorem contains_copyFrom :
    (s.copyFrom t).contains i = true ↔ t.mask.testBit i = true ∧ i < s.bound := by
  have hbound : (s.copyFrom t).bound = s.bound := rfl
  have hmask : (s.copyFrom t).mask = s.fit t.mask := rfl
  rw [contains_iff, hbound, hmask, testBit_fit]
  by_cases hi : i < s.bound
  · simp [hi]
  · simp [hi]

theorem numbers_retain (s : EntitySet) (keep : Nat → Bool) :
    (s.retain keep).numbers = s.numbers.filter (keep · = true) := by
  ext i
  rw [Finset.mem_filter, mem_numbers, mem_numbers, contains_retain, Bool.and_eq_true]

end Numbers

/-! ## Proper sets -/

section Properness

/-- A set whose bits are all within its words and whose size is their number. -/
structure Proper (s : EntitySet) : Prop where
  counted : s.Counted
  fits : ∀ i, s.mask.testBit i = true → i < s.bound

theorem proper_of_mask_zero (words : Nat) : (⟨words, 0, 0⟩ : EntitySet).Proper where
  counted := counted_of_mask_zero words
  fits i h := by simp at h

theorem proper_withCapacity (capacity : Nat) : (withCapacity capacity).Proper :=
  proper_of_mask_zero _

theorem proper_clear (s : EntitySet) : s.clear.Proper := proper_of_mask_zero _

/-- In a proper set every bit stands for a number. -/
theorem Proper.testBit_iff (h : s.Proper) : s.mask.testBit i = true ↔ s.contains i = true :=
  ⟨fun hbit => contains_iff.mpr ⟨h.fits i hbit, hbit⟩, fun hin => (contains_iff.mp hin).2⟩

theorem Proper.size_eq (h : s.Proper) : s.size = s.numbers.card := by
  rw [card_numbers]
  exact h.counted

theorem Proper.insert (h : s.Proper) (e : Nat) : (s.insert e).Proper where
  counted := h.counted.insert e
  fits i hbit := by
    rw [bound_insert]
    by_cases hadm : s.admits e = true
    · rw [insert_of_admits hadm, Nat.testBit_or, Nat.one_shiftLeft, Nat.testBit_two_pow,
        Bool.or_eq_true, decide_eq_true_eq] at hbit
      rcases hbit with hold | rfl
      · exact h.fits i hold
      · exact (admits_iff.mp hadm).1
    · rw [insert_of_not_admits hadm] at hbit
      exact h.fits i hbit

theorem Proper.erase (h : s.Proper) (e : Nat) : (s.erase e).Proper := by
  by_cases he : s.contains e = true
  · refine ⟨?_, fun i hbit => ?_⟩
    · have hsize : (s.erase e).size = s.size - 1 := by
        rw [erase_of_contains he]
      rw [Counted, hsize, ← card_numbers, numbers_erase,
        Finset.card_erase_of_mem (mem_numbers.mpr he), h.size_eq]
    · rw [erase_of_contains he, Nat.testBit_xor, Nat.one_shiftLeft, Nat.testBit_two_pow] at hbit
      rw [bound_erase]
      by_cases hei : e = i
      · exact hei ▸ lt_bound_of_contains he
      · rw [decide_eq_false hei, Bool.xor_false] at hbit
        exact h.fits i hbit
  · rwa [erase_of_not_contains he]

/-- A set that is counted anew is proper if its bits are within its words. -/
theorem proper_recount (hfits : ∀ i, s.mask.testBit i = true → i < s.bound) :
    s.recount.Proper :=
  ⟨s.counted_recount, hfits⟩

theorem Proper.union (h : s.Proper) (t : EntitySet) : (s.union t).Proper := by
  refine proper_recount fun i hbit => ?_
  have hor : (s.mask ||| s.fit t.mask).testBit i = true := hbit
  rw [Nat.testBit_or, testBit_fit, Bool.or_eq_true, Bool.and_eq_true, decide_eq_true_eq] at hor
  exact hor.elim (h.fits i) And.left

theorem Proper.intersect (h : s.Proper) (t : EntitySet) : (s.intersect t).Proper := by
  refine proper_recount fun i hbit => ?_
  have hand : (s.mask &&& t.mask).testBit i = true := hbit
  rw [Nat.testBit_and, Bool.and_eq_true] at hand
  exact h.fits i hand.1

theorem proper_copyFrom (s t : EntitySet) : (s.copyFrom t).Proper := by
  refine proper_recount fun i hbit => ?_
  have hfit : (s.fit t.mask).testBit i = true := hbit
  rw [testBit_fit, Bool.and_eq_true, decide_eq_true_eq] at hfit
  exact hfit.1

theorem Proper.retain (h : s.Proper) (keep : Nat → Bool) : (s.retain keep).Proper := by
  refine proper_recount fun i hbit => ?_
  have hflip := s.testBit_mask_retain keep i
  by_cases hin : s.contains i = true
  · have hbound : i < s.bound := lt_bound_of_contains hin
    exact hbound
  · rw [Bool.not_eq_true] at hin
    rw [hin, Bool.false_and, Bool.xor_false] at hflip
    exact h.fits i (hflip ▸ hbit)

theorem Proper.numbers_union (ht : t.Proper) (s : EntitySet) :
    (s.union t).numbers = s.numbers ∪ t.numbers.filter (· < s.bound) := by
  ext i
  rw [Finset.mem_union, Finset.mem_filter, mem_numbers, mem_numbers, mem_numbers, contains_union,
    ht.testBit_iff]

theorem Proper.numbers_intersect (ht : t.Proper) (s : EntitySet) :
    (s.intersect t).numbers = s.numbers ∩ t.numbers := by
  ext i
  rw [Finset.mem_inter, mem_numbers, mem_numbers, mem_numbers, contains_intersect, ht.testBit_iff]

theorem Proper.numbers_copyFrom (ht : t.Proper) (s : EntitySet) :
    (s.copyFrom t).numbers = t.numbers.filter (· < s.bound) := by
  ext i
  rw [Finset.mem_filter, mem_numbers, mem_numbers, contains_copyFrom, ht.testBit_iff]

/-- Proper sets are equal when they have the same number of words and the same members. -/
theorem Proper.eq_iff (hs : s.Proper) (ht : t.Proper) :
    s = t ↔ s.words = t.words ∧ s.numbers = t.numbers := by
  refine ⟨fun h => h ▸ ⟨rfl, rfl⟩, fun ⟨hwords, hnumbers⟩ => ?_⟩
  have hsize : s.size = t.size := by
    rw [hs.size_eq, ht.size_eq, hnumbers]
  have hmask : s.mask = t.mask := by
    refine Nat.eq_of_testBit_eq fun i => Bool.eq_iff_iff.mpr ?_
    rw [hs.testBit_iff, ht.testBit_iff, ← mem_numbers, ← mem_numbers, hnumbers]
  obtain ⟨words, mask, size⟩ := s
  obtain ⟨words', mask', size'⟩ := t
  simp only at hwords hmask hsize
  rw [hwords, hmask, hsize]

end Properness

/-! ## Queries -/

section Queries

/-- The answers of a set that stands for a finite set of numbers. -/
structure Denotes (s : EntitySet) (numbers : Finset Nat) : Prop where
  contains : ∀ e, s.contains e = true ↔ e ∈ numbers
  size : s.size = numbers.card
  isEmpty : s.isEmpty = true ↔ numbers = ∅
  first : ∀ e, s.first? = some e ↔ IsLeast (numbers : Set Nat) e
  members : ∀ e, e ∈ s.members ↔ e ∈ numbers
  ascending : s.members.Pairwise (· < ·)

/-- The first member is the least one. -/
theorem first?_eq_some_iff : s.first? = some e ↔ IsLeast (s.numbers : Set Nat) e := by
  have hascending := s.members_pairwise
  rw [first?]
  cases hmembers : s.members with
  | nil =>
      have hnone : s.numbers = ∅ := by
        rw [numbers, hmembers, List.toFinset_nil]
      simp [hnone, IsLeast]
  | cons first rest =>
      rw [hmembers] at hascending
      have hmem (i : Nat) : i ∈ (s.numbers : Set Nat) ↔ i = first ∨ i ∈ rest := by
        rw [Finset.mem_coe, numbers, hmembers, List.mem_toFinset, List.mem_cons]
      have hleast : IsLeast (s.numbers : Set Nat) first := by
        refine ⟨(hmem first).mpr (Or.inl rfl), fun i hi => ?_⟩
        rcases (hmem i).mp hi with rfl | hrest
        · exact Nat.le_refl _
        · exact Nat.le_of_lt (List.rel_of_pairwise_cons hascending hrest)
      rw [List.head?_cons, Option.some.injEq]
      exact ⟨fun h => h ▸ hleast, fun h => hleast.unique h⟩

theorem Proper.denotes (h : s.Proper) : s.Denotes s.numbers where
  contains _ := mem_numbers.symm
  size := h.size_eq
  isEmpty := by
    rw [isEmpty, beq_iff_eq, h.size_eq, Finset.card_eq_zero]
  first _ := first?_eq_some_iff
  members _ := by rw [numbers, List.mem_toFinset]
  ascending := s.members_pairwise

end Queries

end EntitySet

/-! ## Families of sets -/

/-- An operation on one set of a family, with another set of the family where it takes one. -/
inductive SetAction (ι : Type) where
  | insert (i : ι) (e : Nat)
  | erase (i : ι) (e : Nat)
  | clear (i : ι)
  | union (i j : ι)
  | intersect (i j : ι)
  | copyFrom (i j : ι)
  | retain (i : ι) (keep : Nat → Bool)

namespace SetAction

variable {ι : Type}

/-- The set that an operation changes. -/
def receiver : SetAction ι → ι
  | insert i _ | erase i _ | clear i | union i _ | intersect i _ | copyFrom i _ | retain i _ => i

/-- What an operation makes of its receiver. -/
def result (sets : ι → EntitySet) : SetAction ι → EntitySet
  | insert i e => (sets i).insert e
  | erase i e => (sets i).erase e
  | clear i => (sets i).clear
  | union i j => (sets i).union (sets j)
  | intersect i j => (sets i).intersect (sets j)
  | copyFrom i j => (sets i).copyFrom (sets j)
  | retain i keep => (sets i).retain keep

/-- What an insertion or a removal reports. -/
def answer (sets : ι → EntitySet) : SetAction ι → Option Bool
  | insert i e => some ((sets i).add e).2
  | erase i e => some ((sets i).drop e).2
  | _ => none

/-- What an operation is on finite sets of numbers, each with room for the numbers below a
bound. -/
def meaning (room : ι → Nat) (sets : ι → Finset Nat) : SetAction ι → Finset Nat
  | insert i e => if e < room i then Insert.insert e (sets i) else sets i
  | erase i e => (sets i).erase e
  | clear _ => ∅
  | union i j => sets i ∪ (sets j).filter (· < room i)
  | intersect i j => sets i ∩ sets j
  | copyFrom i j => (sets j).filter (· < room i)
  | retain i keep => (sets i).filter (keep · = true)

/-- Whether an insertion or a removal changes its receiver. -/
def changes (room : ι → Nat) (sets : ι → Finset Nat) (a : SetAction ι) : Option Bool :=
  match a with
  | insert i _ | erase i _ => some (decide (a.meaning room sets ≠ sets i))
  | _ => none

/-- Operations one after another on a family.  Gives the family and the answers. -/
def run {α : Type} [DecidableEq ι] (result : (ι → α) → SetAction ι → α)
    (answer : (ι → α) → SetAction ι → Option Bool) :
    (ι → α) → List (SetAction ι) → (ι → α) × List (Option Bool)
  | sets, [] => (sets, [])
  | sets, a :: actions =>
    let (last, answers) :=
      run result answer (Function.update sets a.receiver (result sets a)) actions
    (last, answer sets a :: answers)

/-- A family of sets of entities stands for a family of finite sets. -/
structure StandsFor (room : ι → Nat) (sets : ι → EntitySet) (meant : ι → Finset Nat) : Prop where
  proper : ∀ i, (sets i).Proper
  bound : ∀ i, (sets i).bound = room i
  numbers : ∀ i, (sets i).numbers = meant i

variable {room : ι → Nat} {sets : ι → EntitySet} {meant : ι → Finset Nat}

/-- The receiver of an operation, before and after it. -/
theorem StandsFor.receives (h : StandsFor room sets meant) (a : SetAction ι) :
    (a.result sets).Proper ∧ (a.result sets).bound = room a.receiver ∧
      (a.result sets).numbers = a.meaning room meant := by
  have hbound := h.bound a.receiver
  cases a with
  | insert i e =>
      refine ⟨(h.proper i).insert e, ((sets i).bound_insert e).trans hbound, ?_⟩
      rw [SetAction.result, EntitySet.numbers_insert, h.numbers, h.bound, meaning]
  | erase i e =>
      refine ⟨(h.proper i).erase e, ?_, ?_⟩
      · rw [SetAction.result, EntitySet.bound_erase]
        exact hbound
      · rw [SetAction.result, EntitySet.numbers_erase, h.numbers, meaning]
  | clear i => exact ⟨(sets i).proper_clear, hbound, (sets i).numbers_clear⟩
  | union i j =>
      refine ⟨(h.proper i).union (sets j), hbound, ?_⟩
      rw [SetAction.result, (h.proper j).numbers_union, h.numbers, h.numbers, h.bound, meaning]
  | intersect i j =>
      refine ⟨(h.proper i).intersect (sets j), hbound, ?_⟩
      rw [SetAction.result, (h.proper j).numbers_intersect, h.numbers, h.numbers, meaning]
  | copyFrom i j =>
      refine ⟨(sets i).proper_copyFrom (sets j), hbound, ?_⟩
      rw [SetAction.result, (h.proper j).numbers_copyFrom, h.numbers, h.bound, meaning]
  | retain i keep =>
      refine ⟨(h.proper i).retain keep, hbound, ?_⟩
      rw [SetAction.result, EntitySet.numbers_retain, h.numbers, meaning]

/-- An insertion and a removal report whether they change their receiver. -/
theorem StandsFor.answer_eq (h : StandsFor room sets meant) (a : SetAction ι) :
    a.answer sets = a.changes room meant := by
  have hmem (i : ι) (e : Nat) : (sets i).contains e = true ↔ e ∈ meant i := by
    rw [← EntitySet.mem_numbers, h.numbers]
  cases a with
  | insert i e =>
      refine congrArg some (Bool.eq_iff_iff.mpr ?_)
      rw [EntitySet.snd_add, EntitySet.admits_iff, h.bound, ← Bool.not_eq_true, hmem,
        decide_eq_true_eq, meaning]
      split
      · next he => rw [and_iff_right he, ne_eq, Finset.insert_eq_self]
      · next he => exact iff_of_false (fun hadm => he hadm.1) (fun hne => hne rfl)
  | erase i e =>
      refine congrArg some (Bool.eq_iff_iff.mpr ?_)
      rw [EntitySet.snd_drop, hmem, decide_eq_true_eq, meaning, ne_eq, Finset.erase_eq_self,
        not_not]
  | clear | union | intersect | copyFrom | retain => rfl

section Runs

variable [DecidableEq ι]

theorem StandsFor.step (h : StandsFor room sets meant) (a : SetAction ι) :
    StandsFor room (Function.update sets a.receiver (a.result sets))
      (Function.update meant a.receiver (a.meaning room meant)) := by
  obtain ⟨hproper, hbound, hnumbers⟩ := h.receives a
  refine ⟨fun i => ?_, fun i => ?_, fun i => ?_⟩
  all_goals by_cases hi : i = a.receiver
  · subst hi
    rwa [Function.update_self]
  · rw [Function.update_of_ne hi]
    exact h.proper i
  · subst hi
    rwa [Function.update_self]
  · rw [Function.update_of_ne hi]
    exact h.bound i
  · subst hi
    rwa [Function.update_self, Function.update_self]
  · rw [Function.update_of_ne hi, Function.update_of_ne hi]
    exact h.numbers i

theorem StandsFor.run (h : StandsFor room sets meant) (actions : List (SetAction ι)) :
    StandsFor room (run result answer sets actions).1
        (run (meaning room) (changes room) meant actions).1 ∧
      (run result answer sets actions).2 =
        (run (meaning room) (changes room) meant actions).2 := by
  induction actions generalizing sets meant with
  | nil => exact ⟨h, rfl⟩
  | cons a actions ih =>
      obtain ⟨hlast, hanswers⟩ := ih (h.step a)
      exact ⟨hlast, List.cons_eq_cons.mpr ⟨h.answer_eq a, hanswers⟩⟩

/-- **Sets of entities as finite sets.**  Take a family of sets of any capacities that numbers of
entities can have, and any operations on them.  Insertions and removals report whether they change
their set, every set answers as the finite set to which the same operations lead within the words
of its capacity, and two sets are equal when they have the same number of words and the same
members. -/
theorem sets_behave_as_finsets (capacity : ι → Nat) (hcapacity : ∀ i, capacity i ≤ UInt32.size)
    (actions : List (SetAction ι)) :
    let room := fun i => 64 * ((capacity i + 63) / 64)
    let done := run result answer (fun i => EntitySet.withCapacity (capacity i)) actions
    let meant := run (meaning room) (changes room) (fun _ => ∅) actions
    done.2 = meant.2 ∧
    (∀ i, (done.1 i).Denotes (meant.1 i) ∧ ∀ e ∈ meant.1 i, e < room i ∧ e < UInt32.size) ∧
    ∀ i j, done.1 i = done.1 j ↔ (done.1 i).words = (done.1 j).words ∧ meant.1 i = meant.1 j := by
  intro room done meant
  have hstart : StandsFor room (fun i => EntitySet.withCapacity (capacity i)) (fun _ => ∅) :=
    ⟨fun i => EntitySet.proper_withCapacity (capacity i), fun _ => rfl,
      fun i => EntitySet.numbers_withCapacity (capacity i)⟩
  obtain ⟨hlast, hanswers⟩ := hstart.run actions
  refine ⟨hanswers, fun i => ⟨?_, fun e he => ?_⟩, fun i j => ?_⟩
  · rw [← hlast.numbers i]
    exact (hlast.proper i).denotes
  · rw [← hlast.numbers i, EntitySet.mem_numbers] at he
    have hroom : e < room i := hlast.bound i ▸ EntitySet.lt_bound_of_contains he
    refine ⟨hroom, Nat.lt_of_lt_of_le hroom ?_⟩
    have hle := hcapacity i
    simp only [room, UInt32.size] at hle ⊢
    omega
  · rw [(hlast.proper i).eq_iff (hlast.proper j), hlast.numbers, hlast.numbers]

/-- Two capacities, of one word and of three. -/
def twoCapacities : Bool → Nat
  | false => 10
  | true => 130

/-- Numbers that fit the larger set only, and one beyond the smaller capacity but within its
word. -/
def mixedActions : List (SetAction Bool) :=
  [.insert true 129, .insert true 5, .insert false 70, .insert false 63, .union false true,
    .erase true 70, .erase true 129]

theorem sets_behave_as_finsets_mixedActions :
    let done := run result answer (fun i => EntitySet.withCapacity (twoCapacities i)) mixedActions
    done.2 = [some true, some true, some false, some true, none, some false, some true] ∧
    (done.1 false).size = 2 ∧ (done.1 false).first? = some 5 ∧ done.1 false ≠ done.1 true := by
  intro done
  obtain ⟨hanswers, hsets, hequal⟩ :=
    sets_behave_as_finsets twoCapacities (by decide) mixedActions
  refine ⟨hanswers.trans (by decide), (hsets false).1.size.trans (by decide),
    ((hsets false).1.first 5).mpr ?_, fun h => ?_⟩
  · have hmeant : (run (meaning fun i => 64 * ((twoCapacities i + 63) / 64))
        (changes fun i => 64 * ((twoCapacities i + 63) / 64)) (fun _ => ∅) mixedActions).1 false =
          {5, 63} := by
      decide
    rw [hmeant]
    refine ⟨by simp, fun e he => ?_⟩
    rcases Finset.mem_insert.mp he with rfl | he
    · exact Nat.le_refl _
    · rw [Finset.mem_singleton.mp he]
      decide
  · exact absurd ((hequal false true).mp h).1 (by decide)

end Runs

end SetAction
end EntityRules
