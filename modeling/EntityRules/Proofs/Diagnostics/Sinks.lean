import EntityRules.Proofs.Diagnostics.Reports
import Mathlib.Logic.Function.Basic

/-!
# Diagnostics and their handles

The parts of a program report through handles.  A handle that is cloned leads to the diagnostics of
its original, so what one part drains is gone for all of them, and a program can have several
diagnostics of which none sees what is reported to another.

**Input.**  The calls of a program in order, each through a handle that it has made before.  Handles
are numbered as they are made.

**Results.**
* `Diagnostics.AccountsFor.run`: one request keeps the account of all requests.
* `Sinks.accountsFor_run`: so does every call of a program, whatever its handle leads to.
* `Sinks.handles_account`: what every handle shows after any calls.
-/

namespace EntityRules

/-! ## Requests -/

namespace Diagnostics

/-- What a program asks of its diagnostics. -/
inductive Request where
  | report (e : Failure)
  | snapshot
  | drain
deriving DecidableEq

namespace Request

/-- The diagnostics after a request, and the failures that they answer with. -/
def run (d : Diagnostics) : Request → Diagnostics × List Failure
  | .report e => (d.report e, [])
  | .snapshot => (d, d.snapshot)
  | .drain => d.drain

/-- The failure that a request reports. -/
def failure? : Request → Option Failure
  | .report e => some e
  | .snapshot | .drain => none

end Request

/-- The failures that are reported, oldest first. -/
def reported (requests : List Request) : List Failure := requests.filterMap Request.failure?

/-- The failures that are reported after the last drain, oldest first. -/
def pending (requests : List Request) : List Failure :=
  reported (requests.rtakeWhile fun q => q ≠ .drain)

/-- Diagnostics made with a limit that have had these requests. -/
structure AccountsFor (limit : Nat) (requests : List Request) (d : Diagnostics) : Prop where
  limit_eq : d.limit = limit
  history : d.history = (pending requests).rtake limit
  count : ∀ kind, d.count kind = (reported requests).countP (·.kind = kind)
  total : d.total = (reported requests).length

section Logs

variable (requests : List Request)

theorem reported_concat (q : Request) :
    reported (requests ++ [q]) = reported requests ++ q.failure?.toList := by
  simp only [reported, List.filterMap_append, List.filterMap_cons, List.filterMap_nil]
  cases q.failure? <;> rfl

theorem reported_concat_of_none {q : Request} (h : q.failure? = none) :
    reported (requests ++ [q]) = reported requests := by
  rw [reported_concat, h, Option.toList_none, List.append_nil]

theorem pending_concat_of_ne {q : Request} (h : q ≠ .drain) :
    pending (requests ++ [q]) = pending requests ++ q.failure?.toList := by
  rw [pending, List.rtakeWhile_concat_pos _ _ _ (by simpa using h), reported_concat, pending]

theorem pending_concat_drain : pending (requests ++ [.drain]) = [] := by
  rw [pending, List.rtakeWhile_concat_neg _ _ _ (by simp)]
  rfl

end Logs

variable {limit : Nat} {requests : List Request} {d : Diagnostics}

theorem accountsFor_new (limit : Nat) : (new limit).AccountsFor limit [] where
  limit_eq := rfl
  history := (List.rtake_nil limit).symm
  count kind := by cases kind <;> rfl
  total := rfl

/-- A request that reports nothing leaves the counts as they are. -/
theorem AccountsFor.of_silent {d' : Diagnostics} {q : Request} (h : d.AccountsFor limit requests)
    (hq : q.failure? = none) (hlimit : d'.limit = d.limit) (hcounts : d'.counts = d.counts)
    (hhistory : d'.history = (pending (requests ++ [q])).rtake limit) :
    d'.AccountsFor limit (requests ++ [q]) where
  limit_eq := hlimit.trans h.limit_eq
  history := hhistory
  count kind := by
    rw [reported_concat_of_none requests hq, ← h.count kind, Diagnostics.count, hcounts]
    rfl
  total := by
    rw [reported_concat_of_none requests hq, ← h.total]
    simp only [Diagnostics.total, Diagnostics.count, hcounts]

/-- **One request.**  The counts go on through drains and through failures that give way. -/
theorem AccountsFor.run (h : d.AccountsFor limit requests) (q : Request) :
    (q.run d).1.AccountsFor limit (requests ++ [q]) := by
  cases q with
  | report e =>
      have hhistory : d.history = (pending requests).rtake d.limit := by
        rw [h.history, h.limit_eq]
      refine ⟨h.limit_eq, ?_, fun kind => ?_, ?_⟩
      · rw [pending_concat_of_ne requests (by simp), ← h.limit_eq]
        exact history_report hhistory e
      · rw [reported_concat, List.countP_append, ← h.count kind]
        exact (d.count_report e kind).trans (by simp [Request.failure?, List.countP_cons])
      · rw [reported_concat, List.length_append, ← h.total]
        exact d.total_report e
  | snapshot =>
      refine h.of_silent rfl rfl rfl ?_
      rw [pending_concat_of_ne requests (by simp), Request.failure?, Option.toList_none,
        List.append_nil]
      exact h.history
  | drain =>
      refine h.of_silent rfl rfl rfl ?_
      rw [pending_concat_drain, List.rtake_nil]
      rfl

/-- A limit beyond what is pending cuts nothing off. -/
theorem AccountsFor.history_eq_latest (h : d.AccountsFor limit requests) :
    d.history = (pending requests).rtake (min limit (pending requests).length) := by
  rw [h.history, List.rtake, List.rtake,
    (by omega : ∀ n : Nat, n - min limit n = n - limit)]

end Diagnostics

/-! ## Handles -/

/-- The diagnostics of a program, each under the number of the handle that it was made with, and the
number of the diagnostics to which each handle leads. -/
structure Sinks where
  memory : Nat → Diagnostics := fun _ => {}
  handles : List Nat := []

namespace Sinks

open Diagnostics (Request AccountsFor reported pending)

/-- A call of a program. -/
inductive Call where
  /-- Makes diagnostics and a handle to them. -/
  | create (limit : Nat)
  /-- Makes a handle that leads where another one leads. -/
  | clone (h : Nat)
  | ask (h : Nat) (q : Request)

/-- Where handles lead after a call. -/
def Call.extend (handles : List Nat) : Call → List Nat
  | .create _ => handles ++ [handles.length]
  | .clone h => handles ++ handles[h]?.toList
  | .ask _ _ => handles

/-- A call, and the failures that it answers with. -/
def step (w : Sinks) (c : Call) : Sinks × List Failure :=
  let handles := c.extend w.handles
  match c with
  | .create limit => (⟨Function.update w.memory w.handles.length (.new limit), handles⟩, [])
  | .clone _ => (⟨w.memory, handles⟩, [])
  | .ask h q =>
    match w.handles[h]? with
    | some s =>
      (⟨Function.update w.memory s (q.run (w.memory s)).1, handles⟩, (q.run (w.memory s)).2)
    | none => (w, [])

/-- Calls one after another. -/
def run (w : Sinks) (calls : List Call) : Sinks := calls.foldl (fun w c => (w.step c).1) w

/-- The diagnostics to which a handle leads. -/
def diagnostics? (w : Sinks) (h : Nat) : Option Diagnostics := w.handles[h]?.map w.memory

/-- The request that a call makes of the diagnostics with a number, if its handle leads to them. -/
def Call.requestOf (s : Nat) (handles : List Nat) : Call → Option Request
  | .ask h q => if handles[h]? = some s then some q else none
  | .create _ | .clone _ => none

/-- The requests that calls make of the diagnostics with a number, through whichever handles. -/
def requests (s : Nat) : List Nat → List Call → List Request
  | _, [] => []
  | handles, c :: rest =>
    (c.requestOf s handles).toList ++ requests s (c.extend handles) rest

variable {w : Sinks} {limit h s : Nat} {asked : List Request}

@[simp] theorem handles_step (w : Sinks) (c : Call) :
    (w.step c).1.handles = c.extend w.handles := by
  cases c with
  | create limit => rfl
  | clone h => rfl
  | ask h q =>
      rw [step]
      cases w.handles[h]? <;> rfl

theorem step_ask (hlead : w.handles[h]? = some s) (q : Request) :
    w.step (.ask h q) =
      (⟨Function.update w.memory s (q.run (w.memory s)).1, w.handles⟩,
        (q.run (w.memory s)).2) := by
  rw [step, hlead]
  rfl

theorem prefix_extend (handles : List Nat) (c : Call) : handles <+: c.extend handles := by
  cases c with
  | create limit => exact List.prefix_append _ _
  | clone h => exact List.prefix_append _ _
  | ask h q => exact List.prefix_rfl

/-- Handles are made, and where they lead stays as it is. -/
theorem prefix_run (w : Sinks) (calls : List Call) : w.handles <+: (w.run calls).handles := by
  induction calls generalizing w with
  | nil => exact List.prefix_rfl
  | cons c calls ih =>
      have hstep := prefix_extend w.handles c
      rw [← handles_step] at hstep
      exact hstep.trans (ih (w.step c).1)

/-- **One call.**  It counts for the diagnostics if its handle leads to them, and no other call gets
at them. -/
theorem accountsFor_step (hmade : s < w.handles.length)
    (h : (w.memory s).AccountsFor limit asked) (c : Call) :
    ((w.step c).1.memory s).AccountsFor limit (asked ++ (c.requestOf s w.handles).toList) := by
  cases c with
  | create room =>
      have hother : (w.step (.create room)).1.memory s = w.memory s :=
        Function.update_of_ne (Nat.ne_of_lt hmade) _ _
      rw [hother, Call.requestOf, Option.toList_none, List.append_nil]
      exact h
  | clone original =>
      rw [Call.requestOf, Option.toList_none, List.append_nil]
      exact h
  | ask handle q =>
      cases hlead : w.handles[handle]? with
      | none =>
          simp only [step, Call.requestOf, hlead, reduceCtorEq, if_false, Option.toList_none,
            List.append_nil]
          exact h
      | some t =>
          rw [step_ask hlead]
          by_cases ht : t = s
          · subst ht
            simp only [Call.requestOf, hlead, if_true, Function.update_self]
            exact h.run q
          · simp only [Call.requestOf, hlead, Option.some.injEq, ht, if_false, Option.toList_none,
              List.append_nil, Function.update_of_ne (Ne.symm ht)]
            exact h

/-- **All calls of a program.** -/
theorem accountsFor_run (hmade : s < w.handles.length)
    (h : (w.memory s).AccountsFor limit asked) (calls : List Call) :
    ((w.run calls).memory s).AccountsFor limit (asked ++ requests s w.handles calls) := by
  -- what a handle leads to is looked up when it is used, so the handles go along with the calls
  induction calls generalizing w asked with
  | nil =>
      rw [requests, List.append_nil]
      exact h
  | cons c calls ih =>
      have hgrown : w.handles.length ≤ (w.step c).1.handles.length := by
        rw [handles_step]
        exact (prefix_extend w.handles c).length_le
      have hrest := ih (Nat.lt_of_lt_of_le hmade hgrown) (accountsFor_step hmade h c)
      rwa [handles_step, List.append_assoc] at hrest

/-- **What handles show.**  A program that has made any calls makes diagnostics with a limit, and
then goes on in any way.  Take `asked`, the requests that it has made since then through the handle
of these diagnostics and through its clones.  Every such handle shows the latest of the failures
that were reported after the last drain, oldest first and as many as the limit admits; to look at
them changes nothing, and a drain answers with the same.  The counts are those of all reports,
whatever was drained or gave way, and a clone is one more handle of this kind. -/
theorem handles_account (before : List Call) (limit : Nat) (calls : List Call) :
    let opened := ((run {} before).step (.create limit)).1
    let s := (run {} before).handles.length
    let asked := requests s opened.handles calls
    let latest := (pending asked).rtake (min limit (pending asked).length)
    let later := opened.run calls
    later.handles[s]? = some s ∧
    ∀ h, later.handles[h]? = some s →
      later.step (.ask h .snapshot) = (later, latest) ∧
      (later.step (.ask h .drain)).2 = latest ∧
      (later.step (.clone h)).1.handles = later.handles ++ [s] ∧
      ∃ d, later.diagnostics? h = some d ∧
        (∀ kind, d.count kind = (reported asked).countP (·.kind = kind)) ∧
        d.total = (reported asked).length := by
  intro opened s asked latest later
  have hopened : opened.handles = (run {} before).handles ++ [s] := handles_step _ _
  have hmade : s < opened.handles.length := by
    rw [hopened, List.length_append, List.length_singleton]
    exact Nat.lt_succ_self s
  have hnew : (opened.memory s).AccountsFor limit [] := by
    have hmemory : opened.memory s = .new limit := Function.update_self s _ _
    rw [hmemory]
    exact Diagnostics.accountsFor_new limit
  have haccount : (later.memory s).AccountsFor limit asked := accountsFor_run hmade hnew calls
  have hlatest : (later.memory s).history = latest := haccount.history_eq_latest
  refine ⟨?_, fun h hlead => ⟨?_, ?_, ?_, later.memory s, ?_, haccount.count, haccount.total⟩⟩
  · obtain ⟨more, hmore⟩ := prefix_run opened calls
    rw [← hmore, List.getElem?_append_left hmade, hopened, List.getElem?_concat_length]
  · rw [step_ask hlead, Request.run, Function.update_eq_self]
    exact congrArg (Prod.mk later) hlatest
  · rw [step_ask hlead]
    exact hlatest
  · rw [handles_step, Call.extend, hlead, Option.toList_some]
  · rw [diagnostics?, hlead, Option.map_some]

/-- Reports through a handle, a clone of it and a clone of the clone, with a drain among them and
one report to the diagnostics that were there before. -/
def clonedCalls : List Call :=
  [.clone 1, .ask 2 (.report (.staleReference 4)), .ask 1 .drain, .clone 2,
    .ask 3 (.report (.staleReference 5)), .ask 1 (.report (.conversion "id" "expected a text")),
    .ask 0 (.report (.staleReference 6)), .ask 2 (.report (.staleReference 7))]

theorem handles_account_clonedCalls :
    let opened := ((run {} [.create 8]).step (.create 2)).1
    let later := opened.run clonedCalls
    later.step (.ask 3 .snapshot) =
      (later, [.conversion "id" "expected a text", .staleReference 7]) ∧
    ∃ d, later.diagnostics? 3 = some d ∧ d.count .staleReference = 3 ∧ d.total = 4 := by
  intro opened later
  obtain ⟨_, hshown⟩ := handles_account [.create 8] 2 clonedCalls
  obtain ⟨hsnapshot, _, _, d, hd, hcount, htotal⟩ := hshown 3 (by decide)
  exact ⟨hsnapshot.trans (congrArg (Prod.mk later) (by decide)), d, hd,
    (hcount .staleReference).trans (by decide), htotal.trans (by decide)⟩

end Sinks
end EntityRules
