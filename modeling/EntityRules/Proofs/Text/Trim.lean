import EntityRules.Text.Blank
import Mathlib.Data.List.TakeWhile

/-!
# Blanks and the text between them

A text is trimmed by dropping the blanks at its start and those at its end.

**Results.**
* `trimStart_append`: of blanks before a text nothing is left.
* `trim_cons`, `trim_append`: what trimming makes of blanks before and after a text.
* `exists_blanks`: a text that does not start with a blank is its trimmed form and blanks.
-/

namespace EntityRules
namespace Text

variable {c : Char} {s t : List Char}

/-- The code points of the blanks. -/
def blankPoints : List Nat :=
  [0x9, 0xa, 0xb, 0xc, 0xd, 0x20, 0x85, 0xa0, 0x1680, 0x2000, 0x2001, 0x2002, 0x2003, 0x2004,
   0x2005, 0x2006, 0x2007, 0x2008, 0x2009, 0x200a, 0x2028, 0x2029, 0x202f, 0x205f, 0x3000]

theorem toNat_mem_blankPoints (h : isBlank c = true) : c.toNat ∈ blankPoints := by
  simp only [isBlank, Bool.or_eq_true, Bool.and_eq_true, decide_eq_true_eq, beq_iff_eq] at h
  simp only [blankPoints, List.mem_cons, List.not_mem_nil, or_false]
  omega

/-- A text of blanks only. -/
def AllBlank (s : List Char) : Prop := ∀ c ∈ s, isBlank c = true

/-- A text that is empty or starts with a character that is no blank. -/
def StartsFilled (s : List Char) : Prop := ∀ c ∈ s.head?, isBlank c = false

theorem startsFilled_cons (hc : isBlank c = false) (s : List Char) : StartsFilled (c :: s) := by
  intro d hd
  obtain rfl := Option.some.inj hd
  exact hc

theorem trimStart_eq_self (h : StartsFilled s) : trimStart s = s := by
  cases s with
  | nil => rfl
  | cons c s => exact List.dropWhile_cons_of_neg (by simp [h c rfl])

theorem startsFilled_trimStart (s : List Char) : StartsFilled (trimStart s) := by
  intro c hc
  have hdrop := List.head?_dropWhile_not isBlank s
  rw [trimStart] at hc
  rw [Option.mem_def.mp hc] at hdrop
  simpa using hdrop

theorem trimStart_append (hs : AllBlank s) (ht : StartsFilled t) : trimStart (s ++ t) = t := by
  rw [trimStart, List.dropWhile_append_of_pos hs]
  exact trimStart_eq_self ht

/-- A text is a run of blanks and what is left without them. -/
theorem exists_blanks_trimStart (s : List Char) : ∃ b, AllBlank b ∧ s = b ++ trimStart s :=
  ⟨s.takeWhile isBlank, fun _ => List.mem_takeWhile_imp, List.takeWhile_append_dropWhile.symm⟩

theorem trim_cons (hc : isBlank c = true) (s : List Char) : trim (c :: s) = trim s := by
  rw [trim, trimStart, List.dropWhile_cons_of_pos hc, trim, trimStart]

/-- A text without blanks is what is left of it with blanks after it. -/
theorem trim_append (hs : ∀ c ∈ s, isBlank c = false) (ht : AllBlank t) : trim (s ++ t) = s := by
  have hend (u : List Char) (hu : ∀ c ∈ u, isBlank c = false) : trimEnd (u ++ t) = u := by
    have hfilled : StartsFilled u.reverse := fun c hc =>
      hu c (List.mem_reverse.mp (List.mem_of_mem_head? hc))
    have hback : trimStart (t.reverse ++ u.reverse) = u.reverse :=
      trimStart_append (fun c hc => ht c (List.mem_reverse.mp hc)) hfilled
    rw [trimEnd, List.reverse_append, ← trimStart, hback, List.reverse_reverse]
  cases s with
  | nil =>
      have hnone : trimStart t = [] := by
        have hdrop := trimStart_append ht (t := []) (fun c hc => nomatch hc)
        rwa [List.append_nil] at hdrop
      rw [trim, List.nil_append, hnone]
      rfl
  | cons c s =>
      have hstart : trimStart (c :: s ++ t) = c :: s ++ t :=
        trimStart_eq_self (startsFilled_cons (hs c List.mem_cons_self) (s ++ t))
      rw [trim, hstart]
      exact hend (c :: s) hs

/-- A text that does not start with a blank is its trimmed form with blanks after it. -/
theorem exists_blanks (hs : StartsFilled s) : ∃ b, AllBlank b ∧ s = trim s ++ b := by
  obtain ⟨b, hb, heq⟩ := exists_blanks_trimStart s.reverse
  refine ⟨b.reverse, fun c hc => hb c (List.mem_reverse.mp hc), ?_⟩
  have hback := congrArg List.reverse heq
  rw [List.reverse_reverse, List.reverse_append] at hback
  rw [trim, trimStart_eq_self hs]
  exact hback

end Text
end EntityRules
