import EntityRules.Proofs.Json.Equality
import EntityRules.Proofs.Rule.Changes

/-!
# Ledgers with equal rules

Whether there is room for a rule depends on the active rules alone: on their number in its
partition and on which selectors they have.  In which slots the selectors are, and which rules
were active before, does not matter.  So two ledgers with equal rules and equal capacities
answer every further activation alike, and have equal rules afterwards.

**Results.**
* `Balanced.noRoom_iff`: room in terms of the active rules.
* `Alike.activate`: what an activation preserves.
* `Alike.find?_eq`: the rules that are found.
-/

namespace EntityRules

/-- The selectors of the active rules, in order. -/
def RuleBook.sources (b : RuleBook) : List Selector := b.toList.map (·.rule.source)

theorem RuleBook.map_fst_holds (b : RuleBook) : b.holds.map Prod.fst = b.sources := by
  rw [holds, List.map_map]
  rfl

namespace Ledger

variable {l m : Ledger} {partition : Partition} {rule : Rule}

section Room

/-- The tracked selectors are those of the active rules. -/
theorem Balanced.tracked_iff (h : l.Balanced) (selector : Selector) :
    (∃ slot, l.registry.selector? slot = some selector) ↔ selector ∈ l.book.sources := by
  rw [← l.book.map_fst_holds, ← h.accounts.mem_keys_iff, List.mem_map]
  constructor
  · rintro ⟨slot, hslot⟩
    exact ⟨(selector, slot), (h.accounts.index selector slot).mpr hslot, rfl⟩
  · rintro ⟨entry, hentry, rfl⟩
    exact ⟨entry.2, (h.accounts.index entry.1 entry.2).mp hentry⟩

/-- All slots are taken when the active rules have as many different selectors. -/
theorem Balanced.full_iff (h : l.Balanced) :
    (∀ slot, slot < l.registry.capacity → l.registry.selector? slot ≠ none) ↔
      l.book.sources.dedup.length = l.registry.capacity := by
  have hcount : (List.range l.registry.capacity).countP l.registry.slots.has =
      l.book.sources.dedup.length := by
    rw [h.accounts.countP_has, h.accounts.size_eq, l.book.map_fst_holds]
  have hall := List.countP_eq_length (p := l.registry.slots.has)
    (l := List.range l.registry.capacity)
  rw [hcount, List.length_range] at hall
  rw [hall]
  refine forall_congr' fun slot => ?_
  rw [List.mem_range, ne_eq, Registry.selector?_eq_none_iff, Column.has,
    Option.isSome_iff_ne_none]

theorem Balanced.noRoom_iff (h : l.Balanced) (partition : Partition) (rule : Rule) :
    l.NoRoom partition rule ↔
      (l.book.bucket partition).rules.length = (l.book.bucket partition).capacity ∨
        rule.source ∉ l.book.sources ∧
          l.book.sources.dedup.length = l.registry.capacity := by
  rw [NoRoom, h.full_iff, ← h.tracked_iff, not_exists]

/-- An activation for which there is room adds the rule; otherwise nothing happens. -/
theorem Balanced.activate_outcome (h : l.Balanced) (partition : Partition) (rule : Rule) :
    (l.NoRoom partition rule ∧
      ∃ e, l.book.activate partition rule l.registry = (l.book, l.registry, .error e)) ∨
    (¬l.NoRoom partition rule ∧ ∃ slot r handle,
      l.book.activate partition rule l.registry =
        (l.book.setBucket partition ((l.book.bucket partition).push ⟨rule, slot⟩), r,
          .ok handle)) := by
  rcases h.activate_iff partition rule with hno | ⟨hroom, handle, hok⟩
  · exact Or.inl hno
  · rcases l.book.activate_cases partition rule l.registry with
      ⟨_, e, heq⟩ | ⟨_, ⟨e, _, heq⟩ | ⟨slot, handle', _, heq⟩⟩
    · rw [heq] at hok
      nomatch hok
    · rw [heq] at hok
      nomatch hok
    · exact Or.inr ⟨hroom, slot, _, handle', heq⟩

end Room

section Comparison

/-- Two ledgers of equal capacities with equal rules; those of the scene are the same. -/
structure Alike (l m : Ledger) : Prop where
  left : l.Balanced
  right : m.Balanced
  slots : l.registry.capacity = m.registry.capacity
  capacity : ∀ partition, (l.book.bucket partition).capacity = (m.book.bucket partition).capacity
  global : List.Forall₂ (fun a b => (a.rule == b.rule) = true) l.book.global.rules
    m.book.global.rules
  scene : l.book.scene.rules.map (·.rule) = m.book.scene.rules.map (·.rule)

theorem sources_eq_of_forall₂ {rules others : List ActiveRule}
    (h : List.Forall₂ (fun a b => (a.rule == b.rule) = true) rules others) :
    rules.map (·.rule.source) = others.map (·.rule.source) := by
  induction h with
  | nil => rfl
  | cons hab _ ih =>
      simp only [List.map_cons, ih, (Rule.beq_iff.mp hab).2.1]

theorem Alike.sources_eq (h : Alike l m) : l.book.sources = m.book.sources := by
  have hscene : l.book.scene.rules.map (·.rule.source) =
      m.book.scene.rules.map (·.rule.source) := by
    have hmap := congrArg (List.map Rule.source) h.scene
    simpa only [List.map_map, Function.comp_def] using hmap
  rw [RuleBook.sources, RuleBook.sources, RuleBook.toList, RuleBook.toList, List.map_append,
    List.map_append, sources_eq_of_forall₂ h.global, hscene]

theorem Alike.length_eq (h : Alike l m) (partition : Partition) :
    (l.book.bucket partition).rules.length = (m.book.bucket partition).rules.length := by
  cases partition with
  | global => exact h.global.length_eq
  | scene =>
      have hlength := congrArg List.length h.scene
      rwa [List.length_map, List.length_map] at hlength

theorem Alike.noRoom_iff (h : Alike l m) (partition : Partition) (rule : Rule) :
    l.NoRoom partition rule ↔ m.NoRoom partition rule := by
  rw [h.left.noRoom_iff, h.right.noRoom_iff, h.sources_eq, h.slots, h.length_eq, h.capacity]

/-- A rule is found in both partitions or in none. -/
theorem Alike.find?_eq (h : Alike l m) (rule : Rule) :
    (l.book.find? .global rule).isSome = (m.book.find? .global rule).isSome := by
  have hfind : ∀ {rules others : List ActiveRule},
      List.Forall₂ (fun a b => (a.rule == b.rule) = true) rules others →
      rules.any (·.rule == rule) = others.any (·.rule == rule) := by
    intro rules others hrules
    induction hrules with
    | nil => rfl
    | cons hab _ ih => rw [List.any_cons, List.any_cons, ih, BEq.congr_left hab]
  rw [RuleBook.find?, RuleBook.find?, Option.isSome_map, Option.isSome_map,
    List.findIdx?_isSome, List.findIdx?_isSome]
  exact hfind h.global

/-- An activation answers alike and leaves equal rules. -/
theorem Alike.activate (h : Alike l m) (partition : Partition) (rule : Rule) :
    Alike (l.perform (.activate partition rule)) (m.perform (.activate partition rule)) ∧
      ((∃ handle, (l.book.activate partition rule l.registry).2.2 = .ok handle) ↔
        ∃ handle, (m.book.activate partition rule m.registry).2.2 = .ok handle) := by
  have hleft := h.left.perform (.activate partition rule)
  have hright := h.right.perform (.activate partition rule)
  have hslots : (l.perform (.activate partition rule)).registry.capacity =
      (m.perform (.activate partition rule)).registry.capacity := by
    rw [capacity_registry_perform, capacity_registry_perform, h.slots]
  have hcapacity : ∀ other,
      ((l.perform (.activate partition rule)).book.bucket other).capacity =
        ((m.perform (.activate partition rule)).book.bucket other).capacity := by
    intro other
    rw [capacity_perform, capacity_perform, h.capacity]
  -- there is room in both or in none, so of the four cases two cannot occur
  rcases h.left.activate_outcome partition rule with
    ⟨hno, e, hl⟩ | ⟨hroom, slot, r, handle, hl⟩
  · rcases h.right.activate_outcome partition rule with
      ⟨_, e', hm⟩ | ⟨hroom', _⟩
    · refine ⟨⟨hleft, hright, hslots, hcapacity, ?_, ?_⟩, by simp [hl, hm]⟩
      · simpa only [perform, hl, hm] using h.global
      · simpa only [perform, hl, hm] using h.scene
    · exact absurd ((h.noRoom_iff partition rule).mp hno) hroom'
  · rcases h.right.activate_outcome partition rule with
      ⟨hno', _⟩ | ⟨_, slot', r', handle', hm⟩
    · exact absurd ((h.noRoom_iff partition rule).mpr hno') hroom
    · refine ⟨⟨hleft, hright, hslots, hcapacity, ?_, ?_⟩, by simp [hl, hm]⟩
      · simp only [perform, hl, hm]
        cases partition with
        | global => exact List.rel_append h.global (.cons BEq.rfl .nil)
        | scene => exact h.global
      · simp only [perform, hl, hm]
        cases partition with
        | global => exact h.scene
        | scene => simp [RuleBook.setBucket, RuleBook.bucket, Bucket.push, h.scene]

end Comparison

end Ledger
end EntityRules
