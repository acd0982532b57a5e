import EntityRules.Proofs.Selector.Watch
import Mathlib.Data.List.Dedup

/-!
# References to tracked selectors

The holders of references are a list of selectors, each with the slot under which it is held.
The registry accounts for them when every slot counts its holders, every holder finds its
selector in its slot, and the index lists the selectors with their slots, each once.

**Results.**
* `accounts_new`, `Accounts.track`, `Accounts.release`: the registry accounts for the holders
  through every change of references.
* `Accounts.track_error_iff`: tracking fails for want of a slot only.
* `Accounts.slot_unique`, `Accounts.slotOf?_iff`: selectors and slots determine each other.
* `Accounts.size_eq`: as many selectors are tracked as different ones are held.
-/

namespace EntityRules

/-- The operations that neither take nor drop a reference. -/
def RegistryAction.Observes : RegistryAction → Prop
  | .track _ => False
  | .release _ => False
  | _ => True

namespace Registry

/-- The slots count the holders of references, and the index lists the selectors. -/
structure Accounts (r : Registry) (held : List (Selector × Nat)) : Prop where
  refs : ∀ slot t, r.slots.get? slot = some t →
    0 < t.refs ∧ t.refs = held.countP (·.2 = slot)
  held : ∀ h ∈ held, r.selector? h.2 = some h.1
  index : ∀ selector slot, (selector, slot) ∈ r.index ↔ r.selector? slot = some selector
  keys : (r.index.map Prod.fst).Nodup

variable {r r' : Registry} {held held' : List (Selector × Nat)}
variable {selector : Selector} {slot : Nat} {t : Tracked}

theorem accounts_new (slots n : Nat) : (Registry.new slots n).Accounts [] where
  refs slot t h := by simp [Registry.new] at h
  held h hh := by simp at hh
  index selector slot := by simp [Registry.new, selector?]
  keys := List.nodup_nil

section Views

theorem selector?_of_get? (ht : r.slots.get? slot = some t) :
    r.selector? slot = some t.selector := by
  rw [selector?, ht]
  rfl

theorem get?_of_selector? (h : r.selector? slot = some selector) :
    ∃ t, r.slots.get? slot = some t ∧ t.selector = selector :=
  Option.map_eq_some_iff.mp h

theorem selector?_eq_none_iff : r.selector? slot = none ↔ r.slots.get? slot = none :=
  Option.map_eq_none_iff

theorem selector?_ne_of_empty (hempty : r.slots.get? slot = none) :
    r.selector? slot ≠ some selector := by
  rw [selector?_eq_none_iff.mpr hempty]
  exact (Option.some_ne_none selector).symm

/-- The selectors in the slots, when one slot is filled or emptied. -/
theorem selector?_set (hsize : slot < r.slots.size) (value : Option Tracked) (i : Nat) :
    ({ r with slots := r.slots.set slot value } : Registry).selector? i =
      if i = slot then value.map (·.selector) else r.selector? i := by
  simp only [selector?, Column.get?_set]
  by_cases hi : i = slot
  · rw [if_pos ⟨hi, hsize⟩, if_pos hi]
  · rw [if_neg (fun h => hi h.1), if_neg hi]

/-- A change of the number of references shows in no selector. -/
theorem selector?_setRefs (ht : r.slots.get? slot = some t) (refs i : Nat) :
    ({ r with slots := r.slots.set slot (some { t with refs }) } : Registry).selector? i =
      r.selector? i := by
  rw [selector?_set (Column.lt_size_of_get? ht)]
  split
  · next hi =>
      rw [hi, selector?_of_get? ht]
      rfl
  · rfl

end Views

section Lookup

/-- No two slots hold one selector. -/
theorem Accounts.slot_unique (h : r.Accounts held) {i j : Nat}
    (hi : r.selector? i = some selector) (hj : r.selector? j = some selector) : i = j := by
  have hi' := (h.index selector i).mpr hi
  have hj' := (h.index selector j).mpr hj
  have heq := List.inj_on_of_nodup_map h.keys hi' hj' rfl
  exact congrArg Prod.snd heq

/-- The index gives the slots of the tracked selectors and no others. -/
theorem Accounts.slotOf?_iff (h : r.Accounts held) :
    r.slotOf? selector = some slot ↔ r.selector? slot = some selector := by
  rw [slotOf?, Option.map_eq_some_iff]
  constructor
  · rintro ⟨entry, hfind, rfl⟩
    have hkey : entry.1 = selector := by simpa using List.find?_some hfind
    rw [← hkey]
    exact (h.index entry.1 entry.2).mp (List.mem_of_find?_eq_some hfind)
  · intro hselector
    have hentry := (h.index selector slot).mpr hselector
    cases hfind : r.index.find? (fun entry => entry.1 = selector) with
    | none => simpa using List.find?_eq_none.mp hfind _ hentry
    | some entry =>
        have hkey : entry.1 = selector := by simpa using List.find?_some hfind
        have heq := List.inj_on_of_nodup_map h.keys (List.mem_of_find?_eq_some hfind) hentry hkey
        exact ⟨entry, rfl, congrArg Prod.snd heq⟩

theorem Accounts.slotOf?_eq_none_iff (h : r.Accounts held) :
    r.slotOf? selector = none ↔ ∀ slot, r.selector? slot ≠ some selector := by
  rw [Option.eq_none_iff_forall_not_mem]
  exact forall_congr' fun slot => not_congr h.slotOf?_iff

/-- The index never leads to an empty slot. -/
theorem Accounts.slotOf?_eq_none (h : r.Accounts held)
    (hempty : ∀ slot, r.slotOf? selector = some slot → r.slots.get? slot = none) :
    r.slotOf? selector = none := by
  cases hslot : r.slotOf? selector with
  | none => rfl
  | some slot => exact absurd (h.slotOf?_iff.mp hslot) (selector?_ne_of_empty (hempty slot hslot))

end Lookup

section Changes

theorem Accounts.perm (h : r.Accounts held) (hp : held.Perm held') : r.Accounts held' where
  refs slot t ht := by
    rw [← hp.countP_eq]
    exact h.refs slot t ht
  held entry hentry := h.held entry (hp.mem_iff.mpr hentry)
  index := h.index
  keys := h.keys

/-- An empty slot has no holder. -/
theorem Accounts.countP_of_empty (h : r.Accounts held) (hempty : r.slots.get? slot = none) :
    held.countP (·.2 = slot) = 0 := by
  refine List.countP_eq_zero.mpr fun entry hentry heq => ?_
  have hslot : entry.2 = slot := by simpa using heq
  exact selector?_ne_of_empty hempty (hslot ▸ h.held entry hentry)

/-- A further holder of a selector that is tracked. -/
theorem Accounts.share (h : r.Accounts held) (ht : r.slots.get? slot = some t) :
    ({ r with slots := r.slots.set slot (some { t with refs := t.refs + 1 }) } : Registry).Accounts
      ((t.selector, slot) :: held) where
  refs i t' ht' := by
    rcases Column.get?_set_cases ht' with ⟨rfl, hvalue⟩ | ⟨hne, hold⟩
    · obtain rfl := Option.some.inj hvalue
      obtain ⟨_, hrefs⟩ := h.refs i t ht
      rw [List.countP_cons_of_pos (by simp), ← hrefs]
      exact ⟨Nat.succ_pos _, rfl⟩
    · rw [List.countP_cons_of_neg (by simpa using hne.symm)]
      exact h.refs i t' hold
  held entry hentry := by
    rw [selector?_setRefs ht]
    rcases List.mem_cons.mp hentry with rfl | hentry
    · exact selector?_of_get? ht
    · exact h.held entry hentry
  index s i := by
    rw [selector?_setRefs ht]
    exact h.index s i
  keys := h.keys

theorem selector?_occupy (hsize : slot < r.slots.size) (i : Nat) :
    (r.occupy selector slot).selector? i = if i = slot then some selector else r.selector? i :=
  selector?_set hsize _ i

/-- The index has no entry of a new selector to be replaced. -/
theorem Accounts.index_occupy (h : r.Accounts held)
    (huntracked : ∀ i, r.selector? i ≠ some selector) (slot : Nat) :
    (r.occupy selector slot).index = (selector, slot) :: r.index := by
  have hkeep : r.index.filter (·.1 ≠ selector) = r.index := by
    refine List.filter_eq_self.mpr fun entry hentry => ?_
    simp only [ne_eq, decide_not, Bool.not_eq_true', decide_eq_false_iff_not]
    rintro rfl
    exact huntracked entry.2 ((h.index entry.1 entry.2).mp hentry)
  rw [Registry.occupy, hkeep]

/-- The first holder of a selector, in an empty slot. -/
theorem Accounts.occupy (h : r.Accounts held)
    (hfree : r.freeSlot? = some slot) (huntracked : ∀ i, r.selector? i ≠ some selector) :
    (r.occupy selector slot).Accounts ((selector, slot) :: held) := by
  obtain ⟨hsize, hempty⟩ := freeSlot?_eq_some hfree
  refine ⟨fun i t ht => ?_, fun entry hentry => ?_, fun s i => ?_, ?_⟩
  · rcases Column.get?_set_cases ht with ⟨rfl, hvalue⟩ | ⟨hne, hold⟩
    · obtain rfl := Option.some.inj hvalue
      rw [List.countP_cons_of_pos (by simp), h.countP_of_empty hempty]
      exact ⟨Nat.one_pos, rfl⟩
    · rw [List.countP_cons_of_neg (by simpa using hne.symm)]
      exact h.refs i t hold
  · rw [selector?_occupy hsize]
    rcases List.mem_cons.mp hentry with rfl | hentry
    · rw [if_pos rfl]
    · have hne : entry.2 ≠ slot := fun heq =>
        selector?_ne_of_empty hempty (heq ▸ h.held entry hentry)
      rw [if_neg hne]
      exact h.held entry hentry
  · rw [selector?_occupy hsize, h.index_occupy huntracked, List.mem_cons, Prod.mk.injEq, h.index]
    by_cases hi : i = slot
    · have hout : r.selector? i ≠ some s := hi ▸ selector?_ne_of_empty hempty
      simp [hi ▸ hout, hi, eq_comm]
    · simp [hi]
  · rw [h.index_occupy huntracked, List.map_cons, List.nodup_cons]
    refine ⟨fun hmem => ?_, h.keys⟩
    obtain ⟨entry, hentry, rfl⟩ := List.mem_map.mp hmem
    exact huntracked entry.2 ((h.index entry.1 entry.2).mp hentry)

/-- A holder is accounted for as soon as its selector is tracked. -/
theorem Accounts.track (h : r.Accounts held) (htrack : (r.track selector).2 = .ok slot) :
    (r.track selector).1.Accounts ((selector, slot) :: held) := by
  rcases r.track_cases selector with
    ⟨i, t, hslot, ht, heq⟩ | ⟨hslots, ⟨i, hfree, heq⟩ | ⟨_, heq⟩⟩
  · rw [heq] at htrack ⊢
    obtain rfl := Except.ok.inj htrack
    have hselector : t.selector = selector := by
      have htracked := h.slotOf?_iff.mp hslot
      rw [selector?_of_get? ht] at htracked
      exact Option.some.inj htracked
    rw [← hselector]
    exact h.share ht
  · rw [heq] at htrack ⊢
    obtain rfl := Except.ok.inj htrack
    exact h.occupy hfree (h.slotOf?_eq_none_iff.mp (h.slotOf?_eq_none hslots))
  · rw [heq] at htrack
    nomatch htrack

/-- Tracking fails only when the selector is new and all slots are taken, and then it changes
nothing. -/
theorem Accounts.track_error_iff (h : r.Accounts held) :
    (∃ e, r.track selector = (r, .error e)) ↔
      (∀ slot, r.selector? slot ≠ some selector) ∧
        ∀ slot, slot < r.capacity → r.selector? slot ≠ none := by
  have hfull : r.freeSlot? = none ↔ ∀ slot, slot < r.capacity → r.selector? slot ≠ none := by
    rw [freeSlot?_eq_none_iff]
    refine forall_congr' fun slot => imp_congr Iff.rfl ?_
    rw [Option.isSome_iff_ne_none, ne_eq, ne_eq, selector?_eq_none_iff]
  rw [← h.slotOf?_eq_none_iff, ← hfull]
  rcases r.track_cases selector with
    ⟨i, t, hslot, _, heq⟩ | ⟨hslots, ⟨i, hfree, heq⟩ | ⟨hfree, heq⟩⟩
  · simp [heq, hslot]
  · simp [heq, hfree]
  · simp [heq, hfree, h.slotOf?_eq_none hslots]

/-- A holder that goes, while others stay. -/
theorem Accounts.unshare {refs : Nat}
    (h : r.Accounts ((selector, slot) :: held)) (ht : r.slots.get? slot = some t)
    (hrefs : t.refs = refs + 1) (hpos : 0 < refs) :
    ({ r with slots := r.slots.set slot (some { t with refs }) } : Registry).Accounts held where
  refs i t' ht' := by
    rcases Column.get?_set_cases ht' with ⟨rfl, hvalue⟩ | ⟨hne, hold⟩
    · obtain rfl := Option.some.inj hvalue
      have hcount := (h.refs i t ht).2
      rw [hrefs, List.countP_cons_of_pos (by simp)] at hcount
      exact ⟨hpos, Nat.succ.inj hcount⟩
    · have hcount := h.refs i t' hold
      rwa [List.countP_cons_of_neg (by simpa using hne.symm)] at hcount
  held entry hentry := by
    rw [selector?_setRefs ht]
    exact h.held entry (List.mem_cons_of_mem _ hentry)
  index s i := by
    rw [selector?_setRefs ht]
    exact h.index s i
  keys := h.keys

/-- The last holder of a selector goes, and the slot is emptied. -/
theorem Accounts.vacate
    (h : r.Accounts ((selector, slot) :: held)) (ht : r.slots.get? slot = some t)
    (hlast : t.refs ≤ 1) :
    ({ r with
        slots := r.slots.set slot none
        index := r.index.filter (·.1 ≠ t.selector) } : Registry).Accounts held := by
  have hselectors (i : Nat) :
      ({ r with
          slots := r.slots.set slot none
          index := r.index.filter (·.1 ≠ t.selector) } : Registry).selector? i =
        if i = slot then none else r.selector? i :=
    selector?_set (Column.lt_size_of_get? ht) none i
  have hothers : held.countP (·.2 = slot) = 0 := by
    have hcount := (h.refs slot t ht).2
    rw [List.countP_cons_of_pos (by simp)] at hcount
    omega
  refine ⟨fun i t' ht' => ?_, fun entry hentry => ?_, fun s i => ?_, ?_⟩
  · rcases Column.get?_set_cases ht' with ⟨_, hvalue⟩ | ⟨hne, hold⟩
    · nomatch hvalue
    · have hcount := h.refs i t' hold
      rwa [List.countP_cons_of_neg (by simpa using hne.symm)] at hcount
  · have hne : entry.2 ≠ slot := fun heq => by
      have hout := List.countP_eq_zero.mp hothers entry hentry
      simp [heq] at hout
    rw [hselectors, if_neg hne]
    exact h.held entry (List.mem_cons_of_mem _ hentry)
  · rw [hselectors, List.mem_filter, h.index]
    simp only [ne_eq, decide_not, Bool.not_eq_true', decide_eq_false_iff_not]
    by_cases hi : i = slot
    · subst hi
      rw [if_pos rfl, selector?_of_get? ht]
      simp [eq_comm]
    · rw [if_neg hi]
      refine and_iff_left_of_imp fun hs heq => hi ?_
      exact h.slot_unique hs (heq ▸ selector?_of_get? ht)
  · exact h.keys.sublist (List.filter_sublist.map Prod.fst)

/-- A holder that releases its slot is no longer accounted for. -/
theorem Accounts.release (h : r.Accounts ((selector, slot) :: held)) :
    (r.release slot).Accounts held := by
  have hheld := h.held (selector, slot) List.mem_cons_self
  rcases r.release_cases slot with ⟨hempty, _⟩ | ⟨t, ht, ⟨hlast, heq⟩ | ⟨hmore, heq⟩⟩
  · exact absurd hheld (selector?_ne_of_empty hempty)
  · rw [heq]
    exact h.vacate ht hlast
  · rw [heq]
    exact h.unshare ht (Nat.sub_add_cancel (Nat.le_of_lt hmore)).symm (Nat.sub_pos_of_lt hmore)

end Changes

section Observation

/-- The selectors and their references are as they were. -/
structure SameReferences (r r' : Registry) : Prop where
  index : r'.index = r.index
  slots : ∀ slot, (r'.slots.get? slot).map (fun t => (t.selector, t.refs)) =
    (r.slots.get? slot).map (fun t => (t.selector, t.refs))

theorem sameReferences_rematch (r : Registry) (s : Store) : SameReferences r (r.rematch s) where
  index := rfl
  slots slot := by
    rw [get?_rematch, Option.map_map]
    rfl

theorem sameReferences_perform (r : Registry) (s : Store) {a : RegistryAction}
    (ha : a.Observes) : SameReferences r (r.perform s a) := by
  have hrecalculate : SameReferences r (r.recalculate s) :=
    ⟨rfl, (sameReferences_rematch r.advance s).slots⟩
  cases a with
  | track _ => exact ha.elim
  | release _ => exact ha.elim
  | pulse kind e => exact ⟨rfl, fun _ => rfl⟩
  | recalculate => exact hrecalculate
  | rematch => exact sameReferences_rematch r s
  | refresh =>
      simp only [Registry.perform, refresh]
      split
      · exact ⟨rfl, fun _ => rfl⟩
      · exact hrecalculate
  | dropStaleEvents => exact ⟨rfl, fun _ => rfl⟩

theorem SameReferences.selector?_eq (hs : SameReferences r r') (slot : Nat) :
    r'.selector? slot = r.selector? slot := by
  have h := congrArg (Option.map Prod.fst) (hs.slots slot)
  rwa [Option.map_map, Option.map_map] at h

theorem Accounts.observe (h : r.Accounts held) (hs : SameReferences r r') :
    r'.Accounts held where
  refs slot t' ht' := by
    have hslot := hs.slots slot
    rw [ht', Option.map_some, eq_comm, Option.map_eq_some_iff] at hslot
    obtain ⟨t, ht, heq⟩ := hslot
    have hrefs : t.refs = t'.refs := congrArg Prod.snd heq
    rw [← hrefs]
    exact h.refs slot t ht
  held entry hentry := by
    rw [hs.selector?_eq]
    exact h.held entry hentry
  index selector slot := by
    rw [hs.index, hs.selector?_eq]
    exact h.index selector slot
  keys := by
    rw [hs.index]
    exact h.keys

end Observation

section Sizes

/-- The tracked selectors are the held ones. -/
theorem Accounts.mem_keys_iff (h : r.Accounts held) :
    selector ∈ r.index.map Prod.fst ↔ selector ∈ held.map Prod.fst := by
  constructor
  · intro hkey
    obtain ⟨entry, hentry, rfl⟩ := List.mem_map.mp hkey
    have htracked := (h.index entry.1 entry.2).mp hentry
    obtain ⟨t, ht, _⟩ := get?_of_selector? htracked
    obtain ⟨hpos, hcount⟩ := h.refs entry.2 t ht
    obtain ⟨holder, hholder, hslot⟩ := List.countP_pos_iff.mp (hcount ▸ hpos)
    have hholds := h.held holder hholder
    rw [of_decide_eq_true hslot, htracked] at hholds
    exact List.mem_map.mpr ⟨holder, hholder, (Option.some.inj hholds).symm⟩
  · intro hkey
    obtain ⟨holder, hholder, rfl⟩ := List.mem_map.mp hkey
    have hentry := (h.index holder.1 holder.2).mpr (h.held holder hholder)
    exact List.mem_map.mpr ⟨_, hentry, rfl⟩

theorem Accounts.size_eq (h : r.Accounts held) :
    r.size = (held.map Prod.fst).dedup.length := by
  have hperm : (r.index.map Prod.fst).Perm (held.map Prod.fst).dedup := by
    refine (List.perm_ext_iff_of_nodup h.keys (List.nodup_dedup _)).mpr fun selector => ?_
    rw [List.mem_dedup]
    exact h.mem_keys_iff
  rw [← hperm.length_eq, List.length_map, size]

/-- The index has an entry for each slot that is taken. -/
theorem Accounts.countP_has (h : r.Accounts held) :
    (List.range r.capacity).countP r.slots.has = r.size := by
  have hperm : ((List.range r.capacity).filter r.slots.has).Perm (r.index.map Prod.snd) := by
    have hslots : (r.index.map Prod.snd).Nodup := by
      refine List.Nodup.map_on (fun a ha b hb heq => ?_) (List.Nodup.of_map _ h.keys)
      have ha' := (h.index a.1 a.2).mp ha
      have hb' := (h.index b.1 b.2).mp hb
      rw [heq, hb'] at ha'
      exact Prod.ext (Option.some.inj ha').symm heq
    refine (List.perm_ext_iff_of_nodup (List.nodup_range.filter _) hslots).mpr fun slot => ?_
    rw [List.mem_filter, List.mem_range, List.mem_map, Column.has, Option.isSome_iff_exists]
    constructor
    · rintro ⟨_, t, ht⟩
      exact ⟨_, (h.index _ _).mpr (selector?_of_get? ht), rfl⟩
    · rintro ⟨entry, hentry, rfl⟩
      obtain ⟨t, ht, _⟩ := get?_of_selector? ((h.index entry.1 entry.2).mp hentry)
      exact ⟨Column.lt_size_of_get? ht, t, ht⟩
  rw [List.countP_eq_length_filter, hperm.length_eq, List.length_map, size]

end Sizes

end Registry
end EntityRules
