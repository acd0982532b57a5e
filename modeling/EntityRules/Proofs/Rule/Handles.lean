import EntityRules.Proofs.Rule.Book

/-!
# Handles and the order of active rules

A book keeps no record of the calls that have been made of it.  The log does: it lists the calls
with the handles that they gave.  From the log alone it is known which rules are live, namely
those whose activation succeeded after the last clear of their partition.  The registry of
selectors may be another one at each call.

A handle is told apart from those of other generations by a word of 32 bits only, so a partition
must not have been cleared so often that the word comes round.

**Results.**
* `call_cases`: all that a call can do.
* `Recorded.call`, `recorded_callAll`: what one call and what every run preserves.
* `calls_determine_book`: what handles, the list of rules and the search give after a run.
-/

namespace EntityRules

/-! ## Calls -/

namespace RuleAction

/-- The rule that an operation activates, with its partition. -/
def rule? : RuleAction → Option (Partition × Rule)
  | .activate partition rule => some (partition, rule)
  | .tryActivate partition rule => some (partition, rule)
  | .reset => none
  | .clearAll => none

/-- Whether an operation clears a partition. -/
def clears (partition : Partition) : RuleAction → Bool
  | .activate _ _ => false
  | .tryActivate _ _ => false
  | .reset => partition = .scene
  | .clearAll => true

theorem clears_of_rule? {a : RuleAction} {target : Partition × Rule} (h : a.rule? = some target)
    (partition : Partition) : a.clears partition = false := by
  cases a with
  | activate | tryActivate => rfl
  | reset | clearAll => cases h

end RuleAction

/-- An operation on a book with the registry and the diagnostics that it is given. -/
structure RuleCall where
  action : RuleAction
  registry : Registry
  diagnostics : Diagnostics

/-- A call that was made, and the handle that it gave. -/
structure RuleEntry where
  call : RuleCall
  handle? : Option RuleHandle

namespace RuleBook

/-- The book after a call, and the handle that the call gives. -/
def call (b : RuleBook) (c : RuleCall) : RuleBook × Option RuleHandle :=
  match c.action with
  | .activate partition rule =>
    let (b, _, answer) := b.activate partition rule c.registry
    (b, answer.toOption)
  | .tryActivate partition rule =>
    let (b, _, _, handle?) := b.tryActivate partition rule c.registry c.diagnostics
    (b, handle?)
  | .reset => ((b.reset c.registry).1, none)
  | .clearAll => ((b.clearAll c.registry).1, none)

/-- The book after calls. -/
def callAll (b : RuleBook) (calls : List RuleCall) : RuleBook :=
  calls.foldl (fun b c => (b.call c).1) b

/-- The log of calls. -/
def log (b : RuleBook) : List RuleCall → List RuleEntry
  | [] => []
  | c :: calls => ⟨c, (b.call c).2⟩ :: (b.call c).1.log calls

end RuleBook

/-! ## Live rules -/

namespace RuleEntry

/-- The rule that a call has added to a partition, under its handle. -/
def added (partition : Partition) (x : RuleEntry) : List (RuleHandle × ActiveRule) :=
  match x.handle?, x.call.action.rule? with
  | some handle, some (home, rule) =>
    match (x.call.registry.track rule.source).2 with
    | .ok slot => if home = partition then [(handle, ⟨rule, slot⟩)] else []
    | .error _ => []
  | _, _ => []

/-- The live rules of a partition after a further call. -/
def follow (partition : Partition) (live : List (RuleHandle × ActiveRule)) (x : RuleEntry) :
    List (RuleHandle × ActiveRule) :=
  if x.call.action.clears partition then [] else live ++ x.added partition

end RuleEntry

/-- The live rules of a partition under their handles: those that calls have added since the last
clear, in the order of the calls. -/
def liveRules (partition : Partition) (log : List RuleEntry) : List (RuleHandle × ActiveRule) :=
  log.foldl (RuleEntry.follow partition) []

/-- How often a partition was cleared. -/
def clearCount (partition : Partition) (log : List RuleEntry) : Nat :=
  log.countP fun x => x.call.action.clears partition

section Logs

variable {partition : Partition} {log later : List RuleEntry}

theorem liveRules_append (log later : List RuleEntry) :
    liveRules partition (log ++ later) =
      later.foldl (RuleEntry.follow partition) (liveRules partition log) :=
  List.foldl_append

theorem liveRules_concat (log : List RuleEntry) (x : RuleEntry) :
    liveRules partition (log ++ [x]) = RuleEntry.follow partition (liveRules partition log) x :=
  liveRules_append log [x]

theorem clearCount_concat (log : List RuleEntry) (x : RuleEntry) :
    clearCount partition (log ++ [x]) =
      clearCount partition log + if x.call.action.clears partition then 1 else 0 := by
  rw [clearCount, clearCount, List.countP_append, List.countP_singleton]

/-- Without a clear the live rules stay, before those that are added. -/
theorem exists_foldl_follow (h : ∀ x ∈ later, x.call.action.clears partition = false)
    (live : List (RuleHandle × ActiveRule)) :
    ∃ more, later.foldl (RuleEntry.follow partition) live = live ++ more := by
  induction later generalizing live with
  | nil => exact ⟨[], (List.append_nil live).symm⟩
  | cons x later ih =>
      obtain ⟨hx, hlater⟩ := List.forall_mem_cons.mp h
      obtain ⟨more, hmore⟩ := ih hlater (live ++ x.added partition)
      refine ⟨x.added partition ++ more, ?_⟩
      rw [List.foldl_cons, RuleEntry.follow, hx, if_neg Bool.false_ne_true, hmore,
        List.append_assoc]

end Logs

namespace RuleBook

variable {b : RuleBook} {c : RuleCall} {partition other : Partition}

/-! ## One call -/

/-- A call has added a rule and given its handle. -/
def Adds (b : RuleBook) (c : RuleCall) (partition : Partition) (active : ActiveRule) : Prop :=
  c.action.rule? = some (partition, active.rule) ∧
    (c.registry.track active.rule.source).2 = .ok active.selector ∧
    (b.bucket partition).rules.length < (b.bucket partition).capacity ∧
    b.call c =
      (b.setBucket partition ((b.bucket partition).push active),
        some ⟨partition, (b.bucket partition).generation, (b.bucket partition).rules.length⟩)

/-- An activation, whether its failure is reported or returned. -/
theorem call_activation {rule : Rule} (hrule : c.action.rule? = some (partition, rule)) :
    b.call c = ((b.activate partition rule c.registry).1,
      (b.activate partition rule c.registry).2.2.toOption) := by
  obtain ⟨action, r, d⟩ := c
  cases action with
  | activate home other =>
      obtain ⟨rfl, rfl⟩ := Prod.mk.inj (Option.some.inj hrule)
      rfl
  | tryActivate home other =>
      obtain ⟨rfl, rfl⟩ := Prod.mk.inj (Option.some.inj hrule)
      simp only [call, tryActivate]
      rcases b.activate home other r with ⟨book, registry, handle | e⟩ <;> rfl
  | reset => cases hrule
  | clearAll => cases hrule

/-- All that a call can do: it adds a rule, or it gives no handle and clears the partitions that
its operation clears. -/
theorem call_cases (b : RuleBook) (c : RuleCall) :
    (∃ partition active, b.Adds c partition active) ∨
    (b.call c).2 = none ∧ ∀ partition,
      (b.call c).1.bucket partition =
        if c.action.clears partition then (b.bucket partition).clear else b.bucket partition := by
  cases hrule : c.action.rule? with
  | none =>
      right
      obtain ⟨action, r, d⟩ := c
      cases action with
      | activate => cases hrule
      | tryActivate => cases hrule
      | reset =>
          refine ⟨rfl, fun partition => ?_⟩
          cases partition <;> rfl
      | clearAll =>
          refine ⟨rfl, fun partition => ?_⟩
          cases partition <;> rfl
  | some target =>
      obtain ⟨partition, rule⟩ := target
      have hcall := call_activation (b := b) hrule
      have hclears (other : Partition) : c.action.clears other = false :=
        RuleAction.clears_of_rule? hrule other
      rcases b.activate_cases partition rule c.registry with
        ⟨_, e, heq⟩ | ⟨hroom, ⟨e, _, heq⟩ | ⟨slot, handle, htrack, heq⟩⟩
      · right
        rw [hcall, heq]
        exact ⟨rfl, fun other => by rw [hclears, if_neg Bool.false_ne_true]⟩
      · right
        rw [hcall, heq]
        exact ⟨rfl, fun other => by rw [hclears, if_neg Bool.false_ne_true]⟩
      · left
        have hhandle : (b.activate partition rule c.registry).2.2 = .ok handle := by rw [heq]
        obtain rfl := handle_of_activate hhandle
        refine ⟨partition, ⟨rule, slot⟩, hrule, htrack, hroom, ?_⟩
        rw [hcall, heq]
        rfl

end RuleBook

/-! ## Runs -/

/-- The rules of a partition under their handles. -/
def Bucket.numbered (bucket : Bucket) (partition : Partition) : List (RuleHandle × ActiveRule) :=
  bucket.rules.mapIdx fun slot active => (⟨partition, bucket.generation, slot⟩, active)

/-- A book agrees with the log of the calls that have led to it. -/
structure Recorded (global scene : Nat) (log : List RuleEntry) (b : RuleBook) : Prop where
  live : ∀ partition, liveRules partition log = (b.bucket partition).numbered partition
  generation : ∀ partition,
    (b.bucket partition).generation = UInt32.ofNat (clearCount partition log)
  fits : b.Fits
  capacity : (b.bucket .global).capacity = global ∧ (b.bucket .scene).capacity = scene

section Numbered

variable (bucket : Bucket) (partition : Partition)

theorem Bucket.numbered_push (active : ActiveRule) :
    (bucket.push active).numbered partition = bucket.numbered partition ++
      [(⟨partition, bucket.generation, bucket.rules.length⟩, active)] :=
  List.mapIdx_concat

theorem Bucket.rules_eq_map_numbered : bucket.rules = (bucket.numbered partition).map (·.2) := by
  refine List.ext_getElem? fun slot => ?_
  rw [numbered, List.getElem?_map, List.getElem?_mapIdx, Option.map_map]
  exact Option.map_id.symm ▸ rfl

theorem Bucket.length_numbered : (bucket.numbered partition).length = bucket.rules.length :=
  List.length_mapIdx

/-- The first rule that passes a test has its place as its slot. -/
theorem find?_mapIdx (test : ActiveRule → Bool) (handleOf : Nat → RuleHandle)
    (rules : List ActiveRule) :
    ((rules.mapIdx fun slot active => (handleOf slot, active)).find? fun entry =>
      test entry.2).map (·.1) = (rules.findIdx? test).map handleOf := by
  induction rules generalizing handleOf with
  | nil => rfl
  | cons active rules ih =>
      rw [List.mapIdx_cons, List.find?_cons, List.findIdx?_cons]
      cases test active with
      | true => rfl
      | false =>
          simp only [Bool.false_eq_true, if_false, Option.map_map]
          exact ih fun slot => handleOf (slot + 1)

end Numbered

namespace Recorded

variable {global scene : Nat} {log : List RuleEntry} {b : RuleBook} {c : RuleCall}
variable {partition : Partition} {active : ActiveRule}

theorem new (global scene : Nat) : Recorded global scene [] (.new global scene) where
  live partition := by cases partition <;> rfl
  generation partition := by cases partition <;> rfl
  fits partition := by cases partition <;> exact Nat.zero_le _
  capacity := ⟨rfl, rfl⟩

/-- A call that adds a rule puts it after the live rules of its partition. -/
theorem adds (h : Recorded global scene log b) (hadds : b.Adds c partition active) :
    Recorded global scene (log ++ [⟨c, (b.call c).2⟩]) (b.call c).1 := by
  obtain ⟨hrule, htrack, hroom, hcall⟩ := hadds
  have hclears (other : Partition) : c.action.clears other = false :=
    RuleAction.clears_of_rule? hrule other
  have hbucket (other : Partition) : (b.call c).1.bucket other =
      if other = partition then (b.bucket partition).push active else b.bucket other := by
    rw [hcall, RuleBook.bucket_setBucket]
  have hadded (other : Partition) : RuleEntry.added other ⟨c, (b.call c).2⟩ =
      if partition = other then
        [(⟨partition, (b.bucket partition).generation, (b.bucket partition).rules.length⟩,
          active)]
      else [] := by
    simp only [RuleEntry.added, hcall, hrule, htrack]
  have hlimits (other : Partition) :
      ((b.call c).1.bucket other).generation = (b.bucket other).generation ∧
        ((b.call c).1.bucket other).capacity = (b.bucket other).capacity := by
    rw [hbucket]
    split
    · next heq => exact heq ▸ ⟨rfl, rfl⟩
    · exact ⟨rfl, rfl⟩
  refine ⟨fun other => ?_, fun other => ?_, ?_, ?_⟩
  · rw [liveRules_concat, RuleEntry.follow, hclears, if_neg Bool.false_ne_true, h.live, hadded,
      hbucket]
    by_cases hother : other = partition
    · subst hother
      rw [if_pos rfl, if_pos rfl, Bucket.numbered_push]
    · rw [if_neg (Ne.symm hother), if_neg hother, List.append_nil]
  · rw [(hlimits other).1, h.generation, clearCount_concat, hclears]
    rfl
  · rw [hcall]
    exact h.fits.push active hroom
  · rw [(hlimits .global).2, (hlimits .scene).2]
    exact h.capacity

/-- A call that gives no handle leaves a partition as it was, or clears it. -/
theorem clears (h : Recorded global scene log b) (hnone : (b.call c).2 = none)
    (hbucket : ∀ partition, (b.call c).1.bucket partition =
      if c.action.clears partition then (b.bucket partition).clear else b.bucket partition) :
    Recorded global scene (log ++ [⟨c, (b.call c).2⟩]) (b.call c).1 := by
  have hcapacity (partition : Partition) :
      ((b.call c).1.bucket partition).capacity = (b.bucket partition).capacity := by
    rw [hbucket]
    split <;> rfl
  refine ⟨fun partition => ?_, fun partition => ?_, fun partition => ?_, ?_⟩
  · have hadded : RuleEntry.added partition ⟨c, (b.call c).2⟩ = [] := by
      simp only [RuleEntry.added, hnone]
    rw [liveRules_concat, RuleEntry.follow, hadded, hbucket, h.live, List.append_nil]
    split <;> rfl
  · rw [hbucket, clearCount_concat]
    split
    · rw [Bucket.clear, h.generation, UInt32.ofNat_add]
      rfl
    · exact h.generation partition
  · rw [hcapacity, hbucket]
    split
    · exact Nat.zero_le _
    · exact h.fits partition
  · rw [hcapacity, hcapacity]
    exact h.capacity

/-- What one call preserves. -/
theorem call (h : Recorded global scene log b) (c : RuleCall) :
    Recorded global scene (log ++ [⟨c, (b.call c).2⟩]) (b.call c).1 := by
  rcases b.call_cases c with ⟨partition, active, hadds⟩ | ⟨hnone, hbucket⟩
  · exact h.adds hadds
  · exact h.clears hnone hbucket

/-- What every run preserves. -/
theorem callAll (h : Recorded global scene log b) (calls : List RuleCall) :
    Recorded global scene (log ++ b.log calls) (b.callAll calls) := by
  induction calls generalizing log b with
  | nil =>
      rw [RuleBook.log, List.append_nil]
      exact h
  | cons c calls ih =>
      have hrest := ih (h.call c)
      rw [List.append_assoc] at hrest
      exact hrest

end Recorded

namespace RuleBook

variable {b : RuleBook}

/-- An entry of a log stems from a call, the entries before and after it from the calls before
and after. -/
theorem log_split {calls : List RuleCall} {earlier later : List RuleEntry} {x : RuleEntry}
    (h : b.log calls = earlier ++ x :: later) :
    ∃ before after, calls = before ++ x.call :: after ∧ b.log before = earlier ∧
      ((b.callAll before).call x.call).2 = x.handle? ∧
      ((b.callAll before).call x.call).1.log after = later := by
  induction calls generalizing b earlier with
  | nil => simp [log] at h
  | cons c calls ih =>
      cases earlier with
      | nil =>
          obtain ⟨rfl, rfl⟩ := List.cons.inj h
          exact ⟨[], calls, rfl, rfl, rfl, rfl⟩
      | cons first earlier =>
          obtain ⟨rfl, hrest⟩ := List.cons.inj h
          obtain ⟨before, after, rfl, rfl, hhandle, hlater⟩ := ih hrest
          exact ⟨c :: before, after, rfl, rfl, hhandle, hlater⟩

end RuleBook
namespace Recorded

variable {global scene : Nat} {log later : List RuleEntry} {b : RuleBook} {partition : Partition}

/-- A live rule is found under its handle. -/
theorem get?_of_live (h : Recorded global scene log b) {entry : RuleHandle × ActiveRule}
    (hlive : entry ∈ liveRules partition log) : b.get? entry.1 = some entry.2 := by
  rw [h.live, Bucket.numbered] at hlive
  obtain ⟨slot, hslot, heq⟩ := List.mem_mapIdx.mp hlive
  rw [← heq, RuleBook.get?, if_pos rfl]
  exact List.getElem?_eq_getElem hslot

/-- A handle from before a clear of its partition finds nothing. -/
theorem get?_of_clearCount_lt (h : Recorded global scene log b)
    (hfew : clearCount partition log < UInt32.size) {earlier : Nat}
    (hlt : earlier < clearCount partition log) (slot : Nat) :
    b.get? ⟨partition, UInt32.ofNat earlier, slot⟩ = none := by
  refine if_neg fun hsame => ?_
  rw [h.generation] at hsame
  have hwords := congrArg UInt32.toNat hsame
  rw [UInt32.toNat_ofNat_of_lt' hfew, UInt32.toNat_ofNat_of_lt' (Nat.lt_trans hlt hfew)] at hwords
  exact Nat.ne_of_gt hlt hwords

/-- A handle finds the rule that was live under it when it was given, until its partition is
cleared. -/
theorem get?_eq_ite {x : RuleEntry} {slot : Nat} {active : ActiveRule}
    (h : Recorded global scene (log ++ x :: later) b)
    (hfew : clearCount partition (log ++ x :: later) < UInt32.size)
    (hlive : (⟨partition, UInt32.ofNat (clearCount partition log), slot⟩, active) ∈
      liveRules partition (log ++ [x])) :
    b.get? ⟨partition, UInt32.ofNat (clearCount partition log), slot⟩ =
      if later.any fun y => y.call.action.clears partition then none else some active := by
  split
  · next hclear =>
      obtain ⟨y, hy, hclears⟩ := List.any_eq_true.mp hclear
      have hpos : 0 < later.countP fun y => y.call.action.clears partition :=
        List.countP_pos_iff.mpr ⟨y, hy, hclears⟩
      refine h.get?_of_clearCount_lt hfew ?_ slot
      simp only [clearCount, List.countP_append, List.countP_cons]
      omega
  · next hkept =>
      have hquiet : ∀ y ∈ later, y.call.action.clears partition = false := by
        intro y hy
        by_contra hclears
        exact hkept (List.any_eq_true.mpr ⟨y, hy, by simpa using hclears⟩)
      obtain ⟨more, hmore⟩ := exists_foldl_follow hquiet (liveRules partition (log ++ [x]))
      have hsplit : log ++ x :: later = (log ++ [x]) ++ later := by simp
      have hstill := List.mem_append_left more hlive
      rw [← hmore, ← liveRules_append, ← hsplit] at hstill
      exact h.get?_of_live hstill

/-- A call that gives a handle has added a live rule under it. -/
theorem live_of_handle (h : Recorded global scene log b) {c : RuleCall} {handle : RuleHandle}
    (hhandle : (b.call c).2 = some handle) :
    ∃ partition active slot, b.Adds c partition active ∧
      handle = ⟨partition, UInt32.ofNat (clearCount partition log), slot⟩ ∧
      (handle, active) ∈ liveRules partition (log ++ [⟨c, some handle⟩]) := by
  rcases b.call_cases c with ⟨partition, active, hadds⟩ | ⟨hnone, -⟩
  · have hnext := (h.adds hadds).live partition
    have hcall := hadds.2.2.2
    rw [hcall] at hhandle hnext
    obtain rfl := Option.some.inj hhandle
    refine ⟨partition, active, _, hadds, by rw [h.generation], ?_⟩
    rw [hnext, RuleBook.bucket_setBucket, if_pos rfl, Bucket.numbered_push]
    exact List.mem_append_right _ List.mem_cons_self
  · rw [hnone] at hhandle
    cases hhandle

end Recorded

/-- **Handles and the order of rules.**  Take a book after calls in which no partition was cleared
as often as there are words of 32 bits.  A handle that a call gave finds the very rule that the
call activated, with the slot in which its selector is tracked, unless the partition was cleared
later; then it finds nothing.  All rules are the live ones: the global ones, then those of the
scene, each in the order of the calls and never more than the partition has room for.  The search
for a rule gives the handle of the first live rule that equals it, if there is one. -/
theorem calls_determine_book (global scene : Nat) (calls : List RuleCall)
    (hfew : ∀ partition,
      clearCount partition ((RuleBook.new global scene).log calls) < UInt32.size) :
    let b := (RuleBook.new global scene).callAll calls
    let log := (RuleBook.new global scene).log calls
    (∀ earlier x later handle, log = earlier ++ x :: later → x.handle? = some handle →
      ∃ active, x.call.action.rule? = some (handle.partition, active.rule) ∧
        (x.call.registry.track active.rule.source).2 = .ok active.selector ∧
        b.get? handle =
          if later.any fun y => y.call.action.clears handle.partition then none
          else some active) ∧
    b.toList = (liveRules .global log ++ liveRules .scene log).map (·.2) ∧
    (liveRules .global log).length ≤ global ∧ (liveRules .scene log).length ≤ scene ∧
    ∀ partition rule, b.find? partition rule =
      ((liveRules partition log).find? fun entry => entry.2.rule == rule).map (·.1) := by
  intro b log
  have hrun (calls : List RuleCall) := (Recorded.new global scene).callAll calls
  simp only [List.nil_append] at hrun
  have h : Recorded global scene log b := hrun calls
  refine ⟨fun earlier x later handle hlog hhandle => ?_, ?_, ?_, ?_, fun partition rule => ?_⟩
  · obtain ⟨c, given⟩ := x
    obtain rfl : given = some handle := hhandle
    obtain ⟨before, after, -, rfl, hcall, -⟩ := RuleBook.log_split hlog
    obtain ⟨partition, active, slot, ⟨hrule, htrack, -⟩, rfl, hlive⟩ :=
      (hrun before).live_of_handle hcall
    have hwhole : clearCount partition log < UInt32.size := hfew partition
    rw [hlog] at h hwhole
    exact ⟨active, hrule, htrack, h.get?_eq_ite hwhole hlive⟩
  · rw [List.map_append, h.live, h.live, ← Bucket.rules_eq_map_numbered,
      ← Bucket.rules_eq_map_numbered]
    rfl
  · rw [h.live, Bucket.length_numbered, ← h.capacity.1]
    exact h.fits .global
  · rw [h.live, Bucket.length_numbered, ← h.capacity.2]
    exact h.fits .scene
  · rw [h.live]
    exact (find?_mapIdx (fun active => active.rule == rule) _ _).symm

/-- Two rules of the scene that have the same slot, one before and one after the end of the scene,
and between them one for which there is no room. -/
def recycledCalls : List RuleCall :=
  let call (a : RuleAction) : RuleCall := ⟨a, .new 2 4, {}⟩
  [call (.activate .global (Ledger.tagRule "door")),
    call (.tryActivate .scene (Ledger.tagRule "door")),
    call (.activate .scene (Ledger.tagRule "lock")), call .reset,
    call (.activate .scene (Ledger.tagRule "key"))]

theorem calls_determine_book_recycledSlot :
    let b := (RuleBook.new 1 1).callAll recycledCalls
    b.get? ⟨.scene, 0, 0⟩ = none ∧
    (b.get? ⟨.scene, 1, 0⟩).map (·.rule.label) = some "key" ∧
    b.toList.map (·.rule.label) = ["door", "key"] ∧
    b.find? .scene (Ledger.tagRule "key") = some ⟨.scene, 1, 0⟩ := by
  have hfew (partition : Partition) :
      clearCount partition ((RuleBook.new 1 1).log recycledCalls) < UInt32.size := by
    cases partition <;> decide +kernel
  obtain ⟨hget, hlist, -, -, hfind⟩ := calls_determine_book 1 1 recycledCalls hfew
  let log := (RuleBook.new 1 1).log recycledCalls
  refine ⟨?_, ?_, ?_, ?_⟩
  · obtain ⟨active, -, -, hfound⟩ := hget (log.take 1) _ (log.drop 2) ⟨.scene, 0, 0⟩ rfl rfl
    exact hfound
  · obtain ⟨active, hrule, -, hfound⟩ := hget (log.take 4) _ [] ⟨.scene, 1, 0⟩ rfl rfl
    have hkey : Ledger.tagRule "key" = active.rule := (Prod.mk.inj (Option.some.inj hrule)).2
    rw [hfound]
    exact congrArg (fun rule => some rule.label) hkey.symm
  · rw [hlist]
    decide +kernel
  · rw [hfind]
    decide +kernel

end EntityRules
