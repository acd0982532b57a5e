import EntityRules.Diagnostics
import Mathlib.Data.List.DropRight

/-!
# Reports to diagnostics

Each failure is counted, and it is kept until the limit is reached or it is drained.  When the
history is full its oldest failure gives way, so what is kept is always the end of the list of
failures, cut at the limit; a limit of zero keeps nothing.

**Results.**
* `Diagnostics.history_report`, `Diagnostics.history_reportAll`: the end of a list of failures,
  before and after reports.
* `Diagnostics.count_report`, `Diagnostics.total_report`: the counts after one report.
* `Diagnostics.reportAll_perm`: failures in another order.
-/

namespace EntityRules

theorem FailureCounts.get_bump (c : FailureCounts) (bumped kind : FailureKind) :
    (c.bump bumped).get kind = c.get kind + if bumped = kind then 1 else 0 := by
  cases bumped <;> cases kind <;> rfl

namespace Diagnostics

variable {d : Diagnostics} {failures : List Failure}

section Counts

theorem count_report (d : Diagnostics) (e : Failure) (kind : FailureKind) :
    (d.report e).count kind = d.count kind + if e.kind = kind then 1 else 0 :=
  d.counts.get_bump e.kind kind

theorem total_report (d : Diagnostics) (e : Failure) : (d.report e).total = d.total + 1 := by
  simp only [total, FailureKind.all, List.foldl_cons, List.foldl_nil, count_report]
  cases e.kind <;> simp only [reduceCtorEq, if_true, if_false] <;> omega

/-- Every failure is counted. -/
theorem total_reportAll (d : Diagnostics) (failures : List Failure) :
    (d.reportAll failures).total = d.total + failures.length := by
  induction failures generalizing d with
  | nil => rfl
  | cons e failures ih =>
      have hrest : (d.reportAll (e :: failures)).total = (d.report e).total + failures.length :=
        ih (d.report e)
      rw [hrest, total_report, List.length_cons]
      omega

theorem counts_reportAll (d : Diagnostics) (failures : List Failure) :
    (d.reportAll failures).counts =
      failures.foldl (fun counts e => counts.bump e.kind) d.counts := by
  induction failures generalizing d with
  | nil => rfl
  | cons e failures ih => exact ih (d.report e)

end Counts

section History

theorem reportAll_append (d : Diagnostics) (earlier later : List Failure) :
    d.reportAll (earlier ++ later) = (d.reportAll earlier).reportAll later :=
  List.foldl_append

/-- A history that is the end of a list is the end of the longer list after a report. -/
theorem history_report (h : d.history = failures.rtake d.limit) (e : Failure) :
    (d.report e).history = (failures ++ [e]).rtake d.limit := by
  have hreport : (d.report e).history = d.remember e := rfl
  rw [hreport, remember, h]
  cases d.limit with
  | zero => simp
  | succ room =>
      have hlength : (failures.rtake (room + 1)).length = min (room + 1) failures.length := by
        simp only [List.rtake, List.length_drop]
        omega
      rw [if_neg (Nat.succ_ne_zero room), List.rtake_concat_succ, hlength]
      -- without its oldest failure a full history is the end of the list that is one shorter, and
      -- a history that is not full is the whole list
      by_cases hfull : min (room + 1) failures.length = room + 1
      · rw [if_pos hfull, List.rtake, List.rtake, List.drop_drop,
          (by omega : failures.length - (room + 1) + 1 = failures.length - room)]
      · rw [if_neg hfull, List.rtake, List.rtake,
          (by omega : failures.length - (room + 1) = failures.length - room)]

theorem history_reportAll (h : d.history = failures.rtake d.limit) (more : List Failure) :
    (d.reportAll more).history = (failures ++ more).rtake d.limit := by
  induction more generalizing d failures with
  | nil =>
      rw [List.append_nil]
      exact h
  | cons e more ih =>
      have hrest : ((d.report e).reportAll more).history =
          (failures ++ [e] ++ more).rtake d.limit :=
        ih (history_report h e)
      rwa [List.append_assoc, List.singleton_append] at hrest

/-- While there is room, the failures are kept in the order in which they are reported. -/
theorem history_reportAll_of_room (failures : List Failure)
    (hroom : d.history.length + failures.length ≤ d.limit) :
    (d.reportAll failures).history = d.history ++ failures := by
  have hall {l : List Failure} (hl : l.length ≤ d.limit) : l.rtake d.limit = l := by
    rw [List.rtake, Nat.sub_eq_zero_of_le hl, List.drop_zero]
  have hhistory : d.history = d.history.rtake d.limit := (hall (by omega)).symm
  rw [history_reportAll hhistory, hall (by simpa using hroom)]

/-- Failures in another order are counted alike, and while there is room the same are kept. -/
theorem reportAll_perm {l m : List Failure} (h : m.Perm l) (d : Diagnostics) :
    (d.reportAll m).counts = (d.reportAll l).counts ∧
      (d.history.length + l.length ≤ d.limit →
        (d.reportAll m).history.Perm (d.reportAll l).history) := by
  refine ⟨?_, fun hroom => ?_⟩
  · rw [counts_reportAll, counts_reportAll]
    refine h.foldl_eq' (fun e _ f _ counts => ?_) d.counts
    cases e.kind <;> cases f.kind <;> rfl
  · rw [history_reportAll_of_room l hroom, history_reportAll_of_room m (h.length_eq ▸ hroom)]
    exact h.append_left d.history

end History

end Diagnostics
end EntityRules
