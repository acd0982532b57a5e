import EntityRules.Proofs.Selector.References
import EntityRules.Rule.Book

/-!
# Active rules and the selectors they hold

A ledger is a book of active rules, the registry of their selectors, and diagnostics.  Its runs
interleave the operations on rules with the operations on selectors that neither take nor drop a
reference.  The invariant is that the registry accounts for the active rules of both
partitions, whose order does not matter.

**Results.**
* `activate_cases`: all that an activation can do.
* `Accounts.releaseAll`, `clear_perm`: clearing a partition releases what its rules hold.
* `Reached.balanced`: what every run preserves.
* `selectors_account_for_rules`: references, slots and sizes after a run, and when an
  activation fails.
* `Reached.registers_tryActivate`: where an activation that succeeds leaves its rule.
* `Reached.words`: the numbers of places, slots and references as words of 32 bits.
-/

namespace EntityRules

/-- The selector of a rule and the slot under which the rule holds it. -/
def ActiveRule.hold (a : ActiveRule) : Selector × Nat := (a.rule.source, a.selector)

/-- Rules that are released are no longer accounted for. -/
theorem Registry.Accounts.releaseAll {rules : List ActiveRule} {held : List (Selector × Nat)}
    {r : Registry} (h : r.Accounts (rules.map ActiveRule.hold ++ held)) :
    (r.releaseAll rules).Accounts held := by
  induction rules generalizing r with
  | nil => exact h
  | cons a rules ih => exact ih h.release

namespace RuleBook

variable {b : RuleBook} {partition : Partition} {rule : Rule} {r : Registry}

/-- What the active rules hold. -/
def holds (b : RuleBook) : List (Selector × Nat) := b.toList.map ActiveRule.hold

/-- The rules of every partition fit into it. -/
def Fits (b : RuleBook) : Prop :=
  ∀ partition, (b.bucket partition).rules.length ≤ (b.bucket partition).capacity

/-- All that an activation can do. -/
theorem activate_cases (b : RuleBook) (partition : Partition) (rule : Rule) (r : Registry) :
    (b.bucket partition).capacity ≤ (b.bucket partition).rules.length ∧
      (∃ e, b.activate partition rule r = (b, r, .error e)) ∨
    (b.bucket partition).rules.length < (b.bucket partition).capacity ∧
      ((∃ e, r.track rule.source = (r, .error e) ∧
        b.activate partition rule r = (b, r, .error e)) ∨
      (∃ slot handle, (r.track rule.source).2 = .ok slot ∧
        b.activate partition rule r =
          (b.setBucket partition ((b.bucket partition).push ⟨rule, slot⟩),
            (r.track rule.source).1, .ok handle))) := by
  by_cases hfull : (b.bucket partition).capacity ≤ (b.bucket partition).rules.length
  · left
    exact ⟨hfull, .capacityExceeded partition.ruleName (b.bucket partition).capacity,
      by simp [activate, Bucket.isFull, hfull]⟩
  · right
    refine ⟨Nat.lt_of_not_le hfull, ?_⟩
    rcases r.track_ok_or_error rule.source with ⟨slot, heq⟩ | ⟨e, heq⟩
    · right
      refine ⟨slot, ⟨partition, (b.bucket partition).generation,
        (b.bucket partition).rules.length⟩, by rw [heq], ?_⟩
      rw [activate, heq]
      simp [Bucket.isFull, hfull]
    · left
      refine ⟨e, heq, ?_⟩
      rw [activate, heq]
      simp [Bucket.isFull, hfull]

theorem bucket_setBucket (b : RuleBook) (partition other : Partition) (rules : Bucket) :
    (b.setBucket partition rules).bucket other =
      if other = partition then rules else b.bucket other := by
  cases partition <;> cases other <;> rfl

/-- A handle names the place after the rules that were there. -/
theorem handle_of_activate {handle : RuleHandle}
    (h : (b.activate partition rule r).2.2 = .ok handle) :
    handle = ⟨partition, (b.bucket partition).generation, (b.bucket partition).rules.length⟩ := by
  simp only [activate] at h
  split at h
  · cases h
  · split at h
    · cases h
    · exact (Except.ok.inj h).symm

theorem get?_eq_some_iff {handle : RuleHandle} {active : ActiveRule} :
    b.get? handle = some active ↔
      (b.bucket handle.partition).generation = handle.generation ∧
        (b.bucket handle.partition).rules[handle.slot]? = some active := by
  rw [RuleBook.get?]
  exact Option.ite_none_right_eq_some

/-- An activation that succeeds puts the rule behind those of its partition, with the slot in which
its selector is tracked, and the handle leads there. -/
theorem registers_of_activate {handle : RuleHandle}
    (h : (b.activate partition rule r).2.2 = .ok handle) :
    ∃ slot, (r.track rule.source).2 = .ok slot ∧
      b.activate partition rule r =
        (b.setBucket partition ((b.bucket partition).push ⟨rule, slot⟩),
          (r.track rule.source).1, .ok handle) ∧
      (b.activate partition rule r).1.get? handle = some ⟨rule, slot⟩ := by
  rcases b.activate_cases partition rule r with
    ⟨_, e, heq⟩ | ⟨_, ⟨e, _, heq⟩ | ⟨slot, other, htrack, heq⟩⟩
  · rw [heq] at h
    cases h
  · rw [heq] at h
    cases h
  · have hother : other = handle := by
      rw [heq] at h
      exact Except.ok.inj h
    refine ⟨slot, htrack, hother ▸ heq, ?_⟩
    rw [handle_of_activate h, heq, get?_eq_some_iff]
    simp [bucket_setBucket, Bucket.push]

theorem Fits.push (h : b.Fits) (active : ActiveRule)
    (hroom : (b.bucket partition).rules.length < (b.bucket partition).capacity) :
    (b.setBucket partition ((b.bucket partition).push active)).Fits := by
  intro other
  have hpush : ((b.bucket partition).push active).rules.length ≤
      ((b.bucket partition).push active).capacity := by
    rw [Bucket.push, List.length_append]
    exact hroom
  cases partition <;> cases other
  · exact hpush
  · exact h .scene
  · exact h .global
  · exact hpush

theorem Fits.clear (h : b.Fits) (partition : Partition) :
    (b.setBucket partition (b.bucket partition).clear).Fits := by
  intro other
  cases partition <;> cases other
  · exact Nat.zero_le _
  · exact h .scene
  · exact h .global
  · exact Nat.zero_le _

/-- A further rule in either partition is one more among all rules. -/
theorem push_perm (b : RuleBook) (partition : Partition) (active : ActiveRule) :
    (active.hold :: b.holds).Perm
      (b.setBucket partition ((b.bucket partition).push active)).holds := by
  have hperm : (active :: b.toList).Perm
      (b.setBucket partition ((b.bucket partition).push active)).toList := by
    cases partition with
    | global =>
        have hmiddle : (b.global.rules ++ active :: b.scene.rules).Perm
            (active :: (b.global.rules ++ b.scene.rules)) := List.perm_middle
        simpa [toList, setBucket, bucket, Bucket.push] using hmiddle.symm
    | scene =>
        have hend : (b.toList ++ [active]).Perm (active :: b.toList) :=
          List.perm_append_singleton active b.toList
        simpa [toList, setBucket, bucket, Bucket.push] using hend.symm
  exact hperm.map ActiveRule.hold

/-- All rules are those of a partition and those that stay when it is cleared. -/
theorem clear_perm (b : RuleBook) (partition : Partition) :
    b.holds.Perm ((b.bucket partition).rules.map ActiveRule.hold ++
      (b.setBucket partition (b.bucket partition).clear).holds) := by
  rw [holds, holds, ← List.map_append]
  refine List.Perm.map ActiveRule.hold ?_
  cases partition with
  | global => exact List.Perm.refl _
  | scene =>
      have hswap : (b.global.rules ++ b.scene.rules).Perm (b.scene.rules ++ b.global.rules) :=
        List.perm_append_comm
      simpa [toList, setBucket, bucket, Bucket.clear] using hswap

theorem accounts_clear (h : r.Accounts b.holds) (partition : Partition) :
    (b.clear partition r).2.Accounts (b.clear partition r).1.holds :=
  (h.perm (b.clear_perm partition)).releaseAll

/-- A rule is found if an equal one is active. -/
theorem isSome_find? (b : RuleBook) (partition : Partition) (rule : Rule) :
    (b.find? partition rule).isSome = (b.bucket partition).rules.any (·.rule == rule) := by
  rw [find?, Option.isSome_map, List.findIdx?_isSome]

end RuleBook

/-! ## Runs -/

/-- The active rules, the registry of their selectors, and the failures reported. -/
structure Ledger where
  book : RuleBook
  registry : Registry
  diagnostics : Diagnostics

/-- An operation on active rules. -/
inductive RuleAction where
  | activate (partition : Partition) (rule : Rule)
  | tryActivate (partition : Partition) (rule : Rule)
  | reset
  | clearAll

namespace Ledger

/-- One operation on active rules. -/
def perform (l : Ledger) : RuleAction → Ledger
  | .activate partition rule =>
    let (book, registry, _) := l.book.activate partition rule l.registry
    { l with book, registry }
  | .tryActivate partition rule =>
    let (book, registry, diagnostics, _) :=
      l.book.tryActivate partition rule l.registry l.diagnostics
    ⟨book, registry, diagnostics⟩
  | .reset =>
    let (book, registry) := l.book.reset l.registry
    { l with book, registry }
  | .clearAll =>
    let (book, registry) := l.book.clearAll l.registry
    { l with book, registry }

/-- Operations on active rules one after another. -/
def run (l : Ledger) (actions : List RuleAction) : Ledger := actions.foldl perform l

/-- One operation on selectors over a store. -/
def observe (l : Ledger) (s : Store) (a : RegistryAction) : Ledger :=
  { l with registry := l.registry.perform s a }

/-- The ledgers that runs of operations reach; only those on rules change references. -/
inductive Reached : Ledger → Prop
  | new (global scene slots entities : Nat) (diagnostics : Diagnostics) :
      Reached ⟨.new global scene, .new slots entities, diagnostics⟩
  | perform {l : Ledger} (a : RuleAction) : Reached l → Reached (l.perform a)
  | observe {l : Ledger} (s : Store) (a : RegistryAction) (ha : a.Observes) :
      Reached l → Reached (l.observe s a)

theorem Reached.run {l : Ledger} (hl : l.Reached) (actions : List RuleAction) :
    (l.run actions).Reached := by
  induction actions generalizing l with
  | nil => exact hl
  | cons a actions ih => exact ih (hl.perform a)

/-- What every run preserves. -/
structure Balanced (l : Ledger) : Prop where
  accounts : l.registry.Accounts l.book.holds
  fits : l.book.Fits

variable {l : Ledger} {partition : Partition} {rule : Rule}

theorem balanced_new (global scene slots entities : Nat) (diagnostics : Diagnostics) :
    Balanced ⟨.new global scene, .new slots entities, diagnostics⟩ := by
  refine ⟨Registry.accounts_new slots entities, fun partition => ?_⟩
  cases partition <;> exact Nat.zero_le _

/-- An activation, reported or not, keeps the balance. -/
theorem Balanced.activate (h : l.Balanced) (partition : Partition) (rule : Rule)
    (diagnostics : Diagnostics) :
    Balanced
      ⟨(l.book.activate partition rule l.registry).1,
        (l.book.activate partition rule l.registry).2.1, diagnostics⟩ := by
  rcases l.book.activate_cases partition rule l.registry with
    ⟨_, e, heq⟩ | ⟨hroom, ⟨e, _, heq⟩ | ⟨slot, handle, htrack, heq⟩⟩
  · rw [heq]
    exact ⟨h.accounts, h.fits⟩
  · rw [heq]
    exact ⟨h.accounts, h.fits⟩
  · rw [heq]
    exact ⟨(h.accounts.track htrack).perm (l.book.push_perm partition ⟨rule, slot⟩),
      h.fits.push ⟨rule, slot⟩ hroom⟩

theorem tryActivate_eq (l : Ledger) (partition : Partition) (rule : Rule) :
    l.book.tryActivate partition rule l.registry l.diagnostics =
      ((l.book.activate partition rule l.registry).1,
        (l.book.activate partition rule l.registry).2.1,
        match (l.book.activate partition rule l.registry).2.2 with
        | .ok handle => (l.diagnostics, some handle)
        | .error e => (l.diagnostics.report e, none)) := by
  rw [RuleBook.tryActivate]
  rcases l.book.activate partition rule l.registry with ⟨book, registry, handle | e⟩ <;> rfl

theorem Balanced.perform (h : l.Balanced) (a : RuleAction) : (l.perform a).Balanced := by
  cases a with
  | activate partition rule => exact h.activate partition rule l.diagnostics
  | tryActivate partition rule =>
      simp only [Ledger.perform, tryActivate_eq]
      exact h.activate partition rule _
  | reset => exact ⟨RuleBook.accounts_clear h.accounts .scene, h.fits.clear .scene⟩
  | clearAll =>
      have hscene := RuleBook.accounts_clear h.accounts .scene
      exact ⟨RuleBook.accounts_clear hscene .global, (h.fits.clear .scene).clear .global⟩

theorem Reached.balanced (hl : l.Reached) : l.Balanced := by
  induction hl with
  | new global scene slots entities diagnostics =>
      exact balanced_new global scene slots entities diagnostics
  | perform a _ ih => exact ih.perform a
  | observe s a ha _ ih =>
      exact ⟨ih.accounts.observe (Registry.sameReferences_perform _ s ha), ih.fits⟩

/-! ## References and failures -/

/-- There is no room for a rule: its partition is full, or its selector is new and all slots
are taken. -/
def NoRoom (l : Ledger) (partition : Partition) (rule : Rule) : Prop :=
  (l.book.bucket partition).rules.length = (l.book.bucket partition).capacity ∨
    (∀ slot, l.registry.selector? slot ≠ some rule.source) ∧
      ∀ slot, slot < l.registry.capacity → l.registry.selector? slot ≠ none

/-- Without room an activation fails and changes nothing; with room it succeeds. -/
theorem Balanced.activate_iff (h : l.Balanced) (partition : Partition) (rule : Rule) :
    (l.NoRoom partition rule ∧
      ∃ e, l.book.activate partition rule l.registry = (l.book, l.registry, .error e)) ∨
    (¬l.NoRoom partition rule ∧
      ∃ handle, (l.book.activate partition rule l.registry).2.2 = .ok handle) := by
  have htrack : (∃ e, l.registry.track rule.source = (l.registry, .error e)) ↔ _ :=
    h.accounts.track_error_iff
  rcases l.book.activate_cases partition rule l.registry with
    ⟨hfull, e, heq⟩ | ⟨hroom, ⟨e, hfail, heq⟩ | ⟨slot, handle, hok, heq⟩⟩
  · left
    exact ⟨Or.inl (Nat.le_antisymm (h.fits partition) hfull), e, heq⟩
  · left
    exact ⟨Or.inr (htrack.mp ⟨e, hfail⟩), e, heq⟩
  · right
    refine ⟨?_, handle, by rw [heq]⟩
    rintro (hfull | hnew)
    · exact Nat.ne_of_lt hroom hfull
    · obtain ⟨e, hfail⟩ := htrack.mpr hnew
      rw [hfail] at hok
      nomatch hok

/-- **Selectors against rules.**  After every run, each tracked slot has a reference and counts
the active rules that hold it; every active rule finds its selector in its slot; no two slots
hold one selector; the index leads from exactly the tracked selectors to their slots; and as
many selectors are tracked as the active rules have different ones.  An activation fails exactly
when there is no room, and then changes neither the book nor the registry. -/
theorem selectors_account_for_rules (l : Ledger) (hl : l.Reached) :
    (∀ slot t, l.registry.slots.get? slot = some t →
      1 ≤ t.refs ∧ t.refs = l.book.toList.countP (·.selector = slot)) ∧
    (∀ a ∈ l.book.toList, l.registry.selector? a.selector = some a.rule.source) ∧
    (∀ i j selector,
      l.registry.selector? i = some selector →
      l.registry.selector? j = some selector → i = j) ∧
    (∀ selector slot,
      l.registry.slotOf? selector = some slot ↔
        l.registry.selector? slot = some selector) ∧
    (List.range l.registry.capacity).countP l.registry.slots.has = l.registry.size ∧
    l.registry.size = (l.book.toList.map (·.rule.source)).dedup.length ∧
    ∀ partition rule,
      ((∃ e, (l.book.activate partition rule l.registry).2.2 = .error e) ↔
        l.NoRoom partition rule) ∧
      ((l.book.tryActivate partition rule l.registry l.diagnostics).2.2.2 = none ↔
        l.NoRoom partition rule) ∧
      (l.NoRoom partition rule →
        l.perform (.activate partition rule) = l ∧
        (l.perform (.tryActivate partition rule)).book = l.book ∧
        (l.perform (.tryActivate partition rule)).registry = l.registry) := by
  have h := hl.balanced
  refine ⟨fun slot t ht => ?_, fun a ha => ?_, fun i j selector => h.accounts.slot_unique,
    fun selector slot => h.accounts.slotOf?_iff, h.accounts.countP_has, ?_,
    fun partition rule => ?_⟩
  · obtain ⟨hpos, hcount⟩ := h.accounts.refs slot t ht
    refine ⟨hpos, ?_⟩
    rw [hcount, RuleBook.holds, List.countP_map]
    rfl
  · exact h.accounts.held a.hold (List.mem_map_of_mem ha)
  · rw [h.accounts.size_eq, RuleBook.holds, List.map_map]
    rfl
  · rcases h.activate_iff partition rule with ⟨hno, e, heq⟩ | ⟨hroom, handle, heq⟩
    · simp only [perform, tryActivate_eq]
      simp [heq, hno]
    · rw [tryActivate_eq]
      simp [heq, hroom]

/-- A reported activation that gives a handle leaves its rule there: it comes behind the rules of
its partition, the handle leads to it, its selector is tracked, and nothing is reported. -/
theorem Reached.registers_tryActivate (hl : l.Reached) {handle : RuleHandle}
    (h : (l.book.tryActivate partition rule l.registry l.diagnostics).2.2.2 = some handle) :
    let after := l.perform (.tryActivate partition rule)
    ∃ slot,
      after.book = l.book.setBucket partition ((l.book.bucket partition).push ⟨rule, slot⟩) ∧
        after.book.get? handle = some ⟨rule, slot⟩ ∧
        after.registry.selector? slot = some rule.source ∧
        after.diagnostics = l.diagnostics := by
  intro after
  rw [tryActivate_eq] at h
  cases hanswer : (l.book.activate partition rule l.registry).2.2 with
  | error e =>
      rw [hanswer] at h
      cases h
  | ok other =>
      rw [hanswer] at h
      obtain rfl := Option.some.inj h
      obtain ⟨slot, -, heq, hget⟩ := RuleBook.registers_of_activate hanswer
      have hafter : after =
          ⟨(l.book.activate partition rule l.registry).1,
            (l.book.activate partition rule l.registry).2.1, l.diagnostics⟩ := by
        simp only [after, Ledger.perform, tryActivate_eq, hanswer]
      have hbook : after.book =
          l.book.setBucket partition ((l.book.bucket partition).push ⟨rule, slot⟩) := by
        rw [hafter, heq]
      have hthere : after.book.get? other = some ⟨rule, slot⟩ := by
        rw [hafter]
        exact hget
      -- every active rule holds its selector, so this one does
      have hmem : (⟨rule, slot⟩ : ActiveRule) ∈ after.book.toList := by
        have hbucket := List.mem_of_getElem? (RuleBook.get?_eq_some_iff.mp hthere).2
        rw [RuleBook.toList, List.mem_append]
        cases hpartition : other.partition with
        | global => exact Or.inl (by rwa [hpartition] at hbucket)
        | scene => exact Or.inr (by rwa [hpartition] at hbucket)
      have hheld := (hl.perform (.tryActivate partition rule)).balanced.accounts.held _
        (List.mem_map_of_mem hmem)
      exact ⟨slot, hbook, hthere, hheld, by rw [hafter]⟩

/-- The place in a handle, the slot of a tracked selector and the number of its references are
bounded by the capacities.  With capacities below `2 ^ 32` all of them are words of 32 bits, and
none of them wraps. -/
theorem Reached.words (hl : l.Reached)
    (hrules : (l.book.bucket .global).capacity + (l.book.bucket .scene).capacity < UInt32.size)
    (hslots : l.registry.capacity ≤ UInt32.size) :
    (∀ handle active, l.book.get? handle = some active → handle.slot < UInt32.size) ∧
      ∀ slot t, l.registry.slots.get? slot = some t →
        slot < UInt32.size ∧ t.refs < UInt32.size := by
  have h := hl.balanced
  have hglobal := h.fits .global
  have hscene := h.fits .scene
  refine ⟨fun handle active hget => ?_, fun slot t ht => ⟨?_, ?_⟩⟩
  · obtain ⟨hplace, -⟩ := List.getElem?_eq_some_iff.mp (RuleBook.get?_eq_some_iff.mp hget).2
    have hfits := h.fits handle.partition
    cases hpartition : handle.partition <;> rw [hpartition] at hplace hfits <;> omega
  · exact Nat.lt_of_lt_of_le (Column.lt_size_of_get? ht) hslots
  · obtain ⟨-, hcount⟩ := h.accounts.refs slot t ht
    have hle : t.refs ≤ l.book.holds.length := hcount ▸ List.countP_le_length
    rw [RuleBook.holds, List.length_map, RuleBook.toList, List.length_append] at hle
    have hall : l.book.global.rules.length + l.book.scene.rules.length < UInt32.size :=
      Nat.lt_of_le_of_lt (Nat.add_le_add hglobal hscene) hrules
    exact Nat.lt_of_le_of_lt hle hall

/-- A rule on the entities with a tag. -/
def tagRule (tag : String) : Rule :=
  ⟨tag, .atom (.tag tag), RuleDefinition.keepAll, .deactivate⟩

/-- A global rule and a rule of the scene that share the only slot. -/
def sharedDoor : Ledger :=
  run ⟨.new 1 2, .new 1 4, {}⟩
    [.activate .global (tagRule "door"), .tryActivate .scene (tagRule "door")]

theorem selectors_account_for_rules_sharedDoor :
    sharedDoor.registry.size = 1 ∧
    (∃ t, sharedDoor.registry.slots.get? 0 = some t ∧
      t.refs = sharedDoor.book.toList.countP (·.selector = 0)) ∧
    sharedDoor.NoRoom .scene (tagRule "key") ∧
    sharedDoor.perform (.activate .scene (tagRule "key")) = sharedDoor := by
  have hreached : sharedDoor.Reached := (Reached.new 1 2 1 4 {}).run _
  obtain ⟨hrefs, _, _, _, _, hsize, hfail⟩ := selectors_account_for_rules sharedDoor hreached
  have hno : sharedDoor.NoRoom .scene (tagRule "key") :=
    (hfail .scene (tagRule "key")).1.mp ⟨_, rfl⟩
  refine ⟨hsize.trans (by decide), ⟨_, rfl, (hrefs 0 _ rfl).2⟩, hno, ?_⟩
  exact ((hfail .scene (tagRule "key")).2.2 hno).1

end Ledger
end EntityRules
