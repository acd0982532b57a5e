import EntityRules.Proofs.Entity.Store
import Mathlib.Data.List.Basic
import Mathlib.Logic.Function.Basic

/-!
# The slots of the pools

A store records which slots are active three times: by a flag per slot, by the free slots of
each pool and by a count per pool.  `Pool.Tallies` says that a pool agrees with the flags, and
`Store.Consistent` that both pools do, that they divide the slots among them, and that a slot
which is not active has no components.

**Results.**
* `Pool.Tallies.allocate`, `Pool.Tallies.deallocate`: what one change of a pool preserves.
* `Store.Consistent.perform`: what one operation preserves.
* `Store.consistent_run`: what every run preserves.
* `Store.pools_account_for_slots`: what follows for the free slots, the counts, an activation
  and the end of a scene.
-/

namespace EntityRules

/-! ## Pools -/

namespace Pool

variable {p q : Pool} {active : Nat → Bool} {e f : Nat}

/-- The slots of the range, in ascending order. -/
def slots (p : Pool) : List Nat := List.range' p.start (p.stop - p.start)

theorem owns_iff : p.owns e = true ↔ p.start ≤ e ∧ e < p.stop := by
  rw [owns, Bool.and_eq_true, decide_eq_true_eq, decide_eq_true_eq]

theorem mem_slots : e ∈ p.slots ↔ p.owns e = true := by
  rw [slots, List.mem_range'_1, owns_iff]
  omega

theorem slots_nodup (p : Pool) : p.slots.Nodup := List.nodup_range'

section Lists

theorem mem_release {x : Nat} {l : List Nat} : x ∈ release e l ↔ x = e ∨ x ∈ l := by
  induction l with
  | nil => simp [release]
  | cons f l ih =>
      simp only [release]
      split
      · simp
      · simp only [List.mem_cons, ih]
        exact or_left_comm

theorem release_pairwise {l : List Nat} (hl : l.Pairwise (· < ·)) (he : e ∉ l) :
    (release e l).Pairwise (· < ·) := by
  induction l with
  | nil => simp [release]
  | cons f l ih =>
      obtain ⟨hf, hl'⟩ := List.pairwise_cons.mp hl
      obtain ⟨hne, hel⟩ : e ≠ f ∧ e ∉ l := by simpa using he
      simp only [release]
      split
      · next hle =>
          have hlt : e < f := Nat.lt_of_le_of_ne hle hne
          refine List.pairwise_cons.mpr ⟨fun x hx => ?_, hl⟩
          rcases List.mem_cons.mp hx with rfl | hx
          · exact hlt
          · exact Nat.lt_trans hlt (hf x hx)
      · next hle =>
          refine List.pairwise_cons.mpr ⟨fun x hx => ?_, ih hl' hel⟩
          rcases mem_release.mp hx with rfl | hx
          · exact Nat.lt_of_not_le hle
          · exact hf x hx

/-- A slot that becomes active is counted once more. -/
theorem countP_update_true {l : List Nat} (hl : l.Nodup) (he : e ∈ l)
    (hactive : active e = false) :
    l.countP (Function.update active e true) = l.countP active + 1 := by
  have hrest : (l.erase e).countP (Function.update active e true) =
      (l.erase e).countP active := by
    refine List.countP_congr fun x hx => ?_
    have hne : x ≠ e := (hl.mem_erase_iff.mp hx).1
    rw [Function.update_of_ne hne]
  have hperm := List.perm_cons_erase he
  rw [hperm.countP_eq, hperm.countP_eq, List.countP_cons_of_pos (by simp), hrest,
    List.countP_cons_of_neg (by simp [hactive])]

end Lists

/-- A pool agrees with the flags of its slots: the free slots are those of the range that are
not active, each once, and the count is that of the active ones. -/
structure Tallies (p : Pool) (active : Nat → Bool) : Prop where
  fits : p.capacity < UInt32.size
  ascending : p.free.Pairwise (· < ·)
  mem_free : ∀ e, e ∈ p.free ↔ p.owns e = true ∧ active e = false
  count : p.activeCount.toNat = p.slots.countP active

theorem tallies_ofRange {start stop : Nat} (h : stop - start < UInt32.size) :
    (ofRange start stop).Tallies fun _ => false where
  fits := h
  ascending := List.pairwise_lt_range'
  mem_free e := by
    rw [and_iff_left rfl]
    exact mem_slots (p := ofRange start stop)
  count := by simp [ofRange]

/-- Only the flags of its own slots bear on a pool. -/
theorem Tallies.congr {active' : Nat → Bool} (h : p.Tallies active)
    (hsame : ∀ e, p.owns e = true → active' e = active e) : p.Tallies active' where
  fits := h.fits
  ascending := h.ascending
  mem_free e := by
    rw [h.mem_free]
    exact and_congr_right fun howns => by rw [hsame e howns]
  count := by
    rw [h.count]
    exact List.countP_congr fun e he => by rw [hsame e (mem_slots.mp he)]

theorem Tallies.nodup_free (h : p.Tallies active) : p.free.Nodup :=
  h.ascending.imp Nat.ne_of_lt

/-- No slot is handed out exactly when all are active. -/
theorem Tallies.allocate_eq_none_iff (h : p.Tallies active) :
    p.allocate = (p, none) ↔ ∀ e, p.owns e = true → active e = true := by
  have hfree : p.free = [] ↔ ∀ e, p.owns e = true → active e = true := by
    rw [List.eq_nil_iff_forall_not_mem]
    refine forall_congr' fun e => ?_
    rw [h.mem_free, not_and, Bool.not_eq_false]
  rw [← hfree, allocate]
  cases p.free with
  | nil => simp
  | cons e rest => simp

theorem range_of_allocate (heq : p.allocate = (q, some e)) :
    q.start = p.start ∧ q.stop = p.stop := by
  simp only [Pool.allocate] at heq
  split at heq
  · nomatch heq
  · obtain ⟨rfl, _⟩ := Prod.mk.inj heq
    exact ⟨rfl, rfl⟩

theorem range_deallocate (p : Pool) (e : Nat) :
    (p.deallocate e).1.start = p.start ∧ (p.deallocate e).1.stop = p.stop := by
  simp only [Pool.deallocate]
  split <;> exact ⟨rfl, rfl⟩

/-- The slot handed out is the lowest that is not active, and the pool agrees that it is active
now. -/
theorem Tallies.allocate (h : p.Tallies active) (heq : p.allocate = (q, some e)) :
    p.owns e = true ∧ active e = false ∧
      (∀ f, p.owns f = true → active f = false → e ≤ f) ∧
      q.Tallies (Function.update active e true) := by
  cases hfree : p.free with
  | nil =>
      simp [Pool.allocate, hfree] at heq
  | cons e' rest =>
      simp only [Pool.allocate, hfree, Prod.mk.injEq, Option.some.injEq] at heq
      obtain ⟨rfl, rfl⟩ := heq
      have hascending := h.ascending
      rw [hfree] at hascending
      obtain ⟨hleast, hrest⟩ := List.pairwise_cons.mp hascending
      obtain ⟨howns, hinactive⟩ := (h.mem_free e').mp (hfree ▸ List.mem_cons_self)
      have hcount := countP_update_true p.slots_nodup (mem_slots.mpr howns) hinactive
      refine ⟨howns, hinactive, fun f hf hf' => ?_, ⟨h.fits, hrest, fun f => ?_, ?_⟩⟩
      · have hmem := (h.mem_free f).mpr ⟨hf, hf'⟩
        rw [hfree] at hmem
        rcases List.mem_cons.mp hmem with rfl | hmem
        · exact Nat.le_refl _
        · exact Nat.le_of_lt (hleast f hmem)
      · change f ∈ rest ↔ p.owns f = true ∧ _
        by_cases hf : f = e'
        · subst hf
          have hout : f ∉ rest := fun hmem => Nat.lt_irrefl _ (hleast f hmem)
          simp [hout]
        · rw [Function.update_of_ne hf, ← h.mem_free, hfree, List.mem_cons, or_iff_right hf]
      · -- the count stays below the size of a word, since the new slot is counted too
        have hroom : p.slots.countP active + 1 < UInt32.size := by
          rw [← hcount]
          refine Nat.lt_of_le_of_lt List.countP_le_length ?_
          simpa [slots, capacity] using h.fits
        change (p.activeCount + 1).toNat = p.slots.countP _
        rw [hcount, UInt32.toNat_add, h.count]
        exact Nat.mod_eq_of_lt hroom

/-- An active slot that is given back is free once, and the pool agrees that it is not active
now. -/
theorem Tallies.deallocate (h : p.Tallies active) (howns : p.owns e = true)
    (hactive : active e = true) :
    (p.deallocate e).1.Tallies (Function.update active e false) := by
  have hout : e ∉ p.free := fun hmem => by
    rw [((h.mem_free e).mp hmem).2] at hactive
    exact Bool.noConfusion hactive
  -- the flags before are the flags after with the slot active
  have hcount : p.slots.countP active =
      p.slots.countP (Function.update active e false) + 1 := by
    have hback : p.slots.countP (Function.update (Function.update active e false) e true) =
        p.slots.countP (Function.update active e false) + 1 :=
      countP_update_true p.slots_nodup (mem_slots.mpr howns) (Function.update_self e false active)
    rwa [Function.update_idem, ← hactive, Function.update_eq_self] at hback
  simp only [Pool.deallocate, howns, if_true]
  refine ⟨h.fits, release_pairwise h.ascending hout, fun f => ?_, ?_⟩
  · change f ∈ release e p.free ↔ p.owns f = true ∧ _
    rw [mem_release, h.mem_free]
    by_cases hf : f = e
    · subst hf
      simp [howns]
    · rw [Function.update_of_ne hf, or_iff_right hf]
  · change (p.activeCount - 1).toNat = p.slots.countP _
    have hone : (1 : UInt32) ≤ p.activeCount := by
      rw [UInt32.le_iff_toNat_le, h.count, hcount]
      exact Nat.le_add_left _ _
    rw [UInt32.toNat_sub_of_le _ _ hone, h.count, hcount]
    rfl

end Pool

/-! ## Stores -/

namespace Store

variable {s t : Store} {e f i : Nat} {kind : PoolKind}

section Activity

/-- Both pools and the activity of all slots are as they were, and the slots that are not active
are as they were. -/
structure SameActivity (s t : Store) : Prop where
  pool : ∀ kind, t.pool kind = s.pool kind
  capacity : t.capacity = s.capacity
  active : ∀ e, t.isActive e = s.isActive e
  slot : ∀ e, s.isActive e = false → t.slot e = s.slot e

theorem SameActivity.refl (s : Store) : SameActivity s s :=
  ⟨fun _ => rfl, rfl, fun _ => rfl, fun _ _ => rfl⟩

theorem SameActivity.trans {u : Store} (hst : SameActivity s t) (htu : SameActivity t u) :
    SameActivity s u where
  pool kind := (htu.pool kind).trans (hst.pool kind)
  capacity := htu.capacity.trans hst.capacity
  active e := (htu.active e).trans (hst.active e)
  slot e he := (htu.slot e ((hst.active e).trans he)).trans (hst.slot e he)

@[simp] theorem pool_bump (s : Store) (kind : PoolKind) : s.bump.pool kind = s.pool kind := by
  cases kind <;> rfl

@[simp] theorem pool_setSlot (s : Store) (e : Nat) (slot : Slot) (kind : PoolKind) :
    (s.setSlot e slot).pool kind = s.pool kind := by
  cases kind <;> rfl

theorem pool_setPool (s : Store) (kind other : PoolKind) (p : Pool) :
    (s.setPool kind p).pool other = if other = kind then p else s.pool other := by
  cases kind <;> cases other <;> rfl

theorem sameActivity_bumpFor (s : Store) (c : Component) : SameActivity s (s.bumpFor c) where
  pool kind := by
    simp only [bumpFor]
    split
    · exact pool_bump s kind
    · rfl
  capacity := capacity_bumpFor s c
  active := isActive_bumpFor s c
  slot e _ := slot_bumpFor s c e

theorem sameActivity_put (h : s.isActive e = true) (c : Component) (v : Option c.Value) :
    SameActivity s (s.put c e v) where
  pool kind := pool_setSlot s e _ kind
  capacity := capacity_put s c e v
  active := isActive_put s c e v
  slot i hi := by
    rw [slot_put, if_neg]
    rintro ⟨rfl, _⟩
    rw [h] at hi
    exact Bool.noConfusion hi

theorem sameActivity_insert (s : Store) (c : Component) (e : Nat) (value : c.Value) :
    SameActivity s (s.insert c e value).1 := by
  simp only [insert]
  split
  · next h =>
      exact (sameActivity_bumpFor s c).trans (sameActivity_put (by simpa using h) c _)
  · exact SameActivity.refl s

theorem sameActivity_remove (s : Store) (c : Component) (e : Nat) :
    SameActivity s (s.remove c e).1 := by
  cases hactive : s.isActive e with
  | false =>
      simpa [remove, get?, hactive] using SameActivity.refl s
  | true =>
      simp only [remove]
      split
      · exact (sameActivity_put hactive c none).trans (sameActivity_bumpFor _ c)
      · exact SameActivity.refl s

theorem sameActivity_access (s : Store) (c : Component) (e : Nat) :
    SameActivity s (s.access c e).1 := by
  simp only [access]
  split
  · exact sameActivity_bumpFor s c
  · exact SameActivity.refl s

theorem sameActivity_modify {ρ : Type} (s : Store) (c : Component) (e : Nat)
    (f : c.Value → c.Value × ρ) : SameActivity s (s.modify c e f).1 := by
  cases hactive : s.isActive e with
  | false =>
      simpa [modify, access, hactive] using SameActivity.refl s
  | true =>
      have haccess := sameActivity_access s c e
      simp only [modify]
      split
      · next t value heq =>
          rw [heq] at haccess
          exact haccess.trans (sameActivity_put ((haccess.active e).trans hactive) c _)
      · next t heq =>
          rw [heq] at haccess
          exact haccess

theorem sameActivity_getOrInsert (s : Store) (c : Component) (e : Nat) (initial : c.Value) :
    SameActivity s (s.getOrInsert c e initial).1 := by
  rcases getOrInsert_cases s c e initial with ⟨fault, h⟩ | ⟨t, answer, ht, h⟩
  · rw [h]
    exact SameActivity.refl s
  · rw [h]
    rcases ht with rfl | rfl
    · exact sameActivity_bumpFor t c
    · exact (sameActivity_insert s c e initial).trans (sameActivity_bumpFor _ c)

end Activity

section Changes

theorem isActive_setSlot (h : e < s.capacity) (slot : Slot) :
    (s.setSlot e slot).isActive = Function.update s.isActive e slot.active := by
  funext i
  by_cases hi : i = e
  · subst hi
    rw [Function.update_self, isActive, slot_setSlot, if_pos ⟨rfl, h⟩]
  · rw [Function.update_of_ne hi, isActive, slot_setSlot, if_neg (fun hand => hi hand.1), isActive]

theorem isActive_setPool (s : Store) (kind : PoolKind) (p : Pool) :
    (s.setPool kind p).isActive = s.isActive := by
  funext i
  rw [isActive, slot_setPool, isActive]

theorem setSlot_setPool (s : Store) (e : Nat) (slot : Slot) (kind : PoolKind) (p : Pool) :
    (s.setSlot e slot).setPool kind p = (s.setPool kind p).setSlot e slot := by
  cases kind <;> rfl

theorem isActive_bump (s : Store) : s.bump.isActive = s.isActive := rfl

/-- An activation takes a slot of the pool or changes nothing. -/
theorem activate_cases (s : Store) (kind : PoolKind) :
    ((s.pool kind).allocate = (s.pool kind, none) ∧
        s.activate kind = (s, .error (.exhausted kind))) ∨
      ∃ p e, (s.pool kind).allocate = (p, some e) ∧
        s.activate kind =
          (((s.setPool kind p).setSlot e { s.slot e with active := true }).bump, .ok e) := by
  cases hfree : (s.pool kind).free with
  | nil =>
      left
      simp [activate, Pool.allocate, hfree]
  | cons e rest =>
      right
      refine ⟨{ s.pool kind with free := rest, activeCount := (s.pool kind).activeCount + 1 }, e,
        ?_, ?_⟩
      · simp [Pool.allocate, hfree]
      · simp [activate, Pool.allocate, hfree]

/-- A deactivation empties an active slot and gives it back, or changes nothing. -/
theorem deactivate_cases (s : Store) (e : Nat) :
    (s.isActive e = false ∧ s.deactivate e = (s, false)) ∨
      (s.isActive e = true ∧
        s.deactivate e =
          (((s.setPool (s.home e) ((s.pool (s.home e)).deallocate e).1).setSlot e {}).bump,
            true)) := by
  cases hactive : s.isActive e with
  | false => exact Or.inl ⟨rfl, by simp [deactivate, hactive]⟩
  | true => exact Or.inr ⟨rfl, by simp [deactivate, hactive, setSlot_setPool]⟩

end Changes

section Invariant

/-- The pools divide the slots among them, each agrees with the flags of its slots, and a slot
that is not active has no components. -/
structure Consistent (global scene : Nat) (s : Store) : Prop where
  globalRange : s.global.start = 0 ∧ s.global.stop = global
  sceneRange : s.scene.start = global ∧ s.scene.stop = global + scene
  capacity : s.capacity = global + scene
  tallies : ∀ kind, (s.pool kind).Tallies s.isActive
  bare : ∀ e, s.isActive e = false → (s.slot e).components = .empty

variable {global scene : Nat}

theorem slot_new (global scene : UInt32) (e : Nat) : (new global scene).slot e = {} := by
  simp only [Store.slot, new, Array.getElem?_replicate]
  split <;> rfl

theorem consistent_new (global scene : UInt32) :
    (new global scene).Consistent global.toNat scene.toNat where
  globalRange := ⟨rfl, rfl⟩
  sceneRange := ⟨rfl, rfl⟩
  capacity := by simp [new, Store.capacity]
  tallies kind := by
    have hnone : (new global scene).isActive = fun _ => false := by
      funext e
      rw [isActive, slot_new]
    rw [hnone]
    cases kind with
    | global => exact Pool.tallies_ofRange (by simpa using global.toNat_lt)
    | scene => exact Pool.tallies_ofRange (by simpa using scene.toNat_lt)
  bare e _ := by rw [slot_new]

theorem Consistent.sameActivity (h : s.Consistent global scene) (hs : SameActivity s t) :
    t.Consistent global scene := by
  have hglobal : t.global = s.global := hs.pool .global
  have hscene : t.scene = s.scene := hs.pool .scene
  refine ⟨?_, ?_, hs.capacity.trans h.capacity, fun kind => ?_, fun e he => ?_⟩
  · rw [hglobal]
    exact h.globalRange
  · rw [hscene]
    exact h.sceneRange
  · rw [hs.pool kind]
    exact (h.tallies kind).congr fun e _ => hs.active e
  · rw [hs.active] at he
    rw [hs.slot e he]
    exact h.bare e he

theorem Consistent.global_owns_iff (h : s.Consistent global scene) :
    s.global.owns e = true ↔ e < global := by
  rw [Pool.owns_iff, h.globalRange.1, h.globalRange.2]
  exact and_iff_right (Nat.zero_le e)

theorem Consistent.scene_owns_iff (h : s.Consistent global scene) :
    s.scene.owns e = true ↔ global ≤ e ∧ e < s.capacity := by
  rw [Pool.owns_iff, h.sceneRange.1, h.sceneRange.2, h.capacity]

/-- A slot is in the range of one pool, that to which it is given back. -/
theorem Consistent.owns_iff (h : s.Consistent global scene) :
    (s.pool kind).owns e = true ↔ e < s.capacity ∧ s.home e = kind := by
  have hglobal := h.global_owns_iff (e := e)
  have hscene := h.scene_owns_iff (e := e)
  have hcapacity := h.capacity
  cases howns : s.global.owns e with
  | true =>
      have hlow := hglobal.mp howns
      cases kind with
      | global => simpa [pool, home, howns] using (by omega : e < s.capacity)
      | scene =>
          have hout : ¬s.scene.owns e = true := fun hin => by
            have hhigh := (hscene.mp hin).1
            omega
          simpa [pool, home, howns] using hout
  | false =>
      have hhigh : global ≤ e := by
        refine Nat.le_of_not_lt fun hlow => ?_
        rw [hglobal.mpr hlow] at howns
        exact Bool.noConfusion howns
      cases kind with
      | global => simp [pool, home, howns]
      | scene => simp [pool, home, howns, hscene, hhigh]

/-- A slot that is filled or emptied, and its pool with it. -/
theorem Consistent.setSlot (h : s.Consistent global scene) {p : Pool} (slot : Slot)
    (howns : (s.pool kind).owns e = true)
    (hrange : p.start = (s.pool kind).start ∧ p.stop = (s.pool kind).stop)
    (hp : p.Tallies (Function.update s.isActive e slot.active))
    (hbare : slot.active = false → slot.components = .empty) :
    (((s.setPool kind p).setSlot e slot).bump).Consistent global scene := by
  have hlt : e < s.capacity := (h.owns_iff.mp howns).1
  generalize ht : ((s.setPool kind p).setSlot e slot).bump = t
  have hactive : t.isActive = Function.update s.isActive e slot.active := by
    rw [← ht, isActive_bump, isActive_setSlot (by simpa using hlt), isActive_setPool]
  have hpool (other : PoolKind) : t.pool other = if other = kind then p else s.pool other := by
    rw [← ht, pool_bump, pool_setSlot, pool_setPool]
  have hranges (other : PoolKind) : (t.pool other).start = (s.pool other).start ∧
      (t.pool other).stop = (s.pool other).stop := by
    rw [hpool]
    split
    · next heq => exact heq ▸ hrange
    · exact ⟨rfl, rfl⟩
  refine ⟨?_, ?_, ?_, fun other => ?_, fun i hi => ?_⟩
  · have hglobal := hranges .global
    exact ⟨hglobal.1.trans h.globalRange.1, hglobal.2.trans h.globalRange.2⟩
  · have hscene := hranges .scene
    exact ⟨hscene.1.trans h.sceneRange.1, hscene.2.trans h.sceneRange.2⟩
  · rw [← ht, capacity_bump, capacity_setSlot, capacity_setPool]
    exact h.capacity
  · rw [hactive, hpool]
    split
    · exact hp
    · next hne =>
        -- the other pool does not own the slot
        refine (h.tallies other).congr fun i hi => Function.update_of_ne ?_ _ _
        rintro rfl
        exact hne ((h.owns_iff.mp hi).2.symm.trans (h.owns_iff.mp howns).2)
  · rw [hactive] at hi
    rw [← ht, slot_bump, slot_setSlot, capacity_setPool, slot_setPool]
    by_cases hie : i = e
    · rw [hie, Function.update_self] at hi
      rw [if_pos ⟨hie, hlt⟩]
      exact hbare hi
    · rw [Function.update_of_ne hie] at hi
      rw [if_neg (fun hand => hie hand.1)]
      exact h.bare i hi

theorem Consistent.activate (h : s.Consistent global scene) (kind : PoolKind) :
    (s.activate kind).1.Consistent global scene := by
  rcases s.activate_cases kind with ⟨_, heq⟩ | ⟨p, e, hallocate, heq⟩
  · rw [heq]
    exact h
  · obtain ⟨howns, _, _, hp⟩ := (h.tallies kind).allocate hallocate
    rw [heq]
    exact h.setSlot { s.slot e with active := true } howns (Pool.range_of_allocate hallocate) hp
      (fun hoff => Bool.noConfusion hoff)

theorem Consistent.deactivate (h : s.Consistent global scene) (e : Nat) :
    (s.deactivate e).1.Consistent global scene := by
  rcases s.deactivate_cases e with ⟨_, heq⟩ | ⟨hactive, heq⟩
  · rw [heq]
    exact h
  · have howns := h.owns_iff.mpr ⟨lt_capacity_of_isActive hactive, rfl⟩
    rw [heq]
    exact h.setSlot {} howns (Pool.range_deallocate _ e)
      ((h.tallies _).deallocate howns hactive) (fun _ => rfl)

theorem Consistent.deactivateAll (h : s.Consistent global scene) (l : List Nat) :
    (s.deactivateAll l).1.Consistent global scene := by
  induction l generalizing s with
  | nil => exact h
  | cons e l ih => exact ih (h.deactivate e)

/-- What one operation preserves. -/
theorem Consistent.perform (h : s.Consistent global scene) (a : StoreAction) :
    (s.perform a).Consistent global scene := by
  cases a with
  | activate pool => exact h.activate pool
  | deactivate e => exact h.deactivate e
  | resetScene => exact h.deactivateAll s.sceneSlots
  | insert c e value => exact h.sameActivity (sameActivity_insert s c e value)
  | modify c e change => exact h.sameActivity (sameActivity_modify s c e _)
  | remove c e => exact h.sameActivity (sameActivity_remove s c e)
  | getOrInsert c e initial change =>
      have hobtain := sameActivity_getOrInsert s c e initial
      simp only [Store.perform]
      split
      · next t value heq =>
          rw [heq] at hobtain
          have hactive : s.isActive e = true := by
            cases hactive : s.isActive e with
            | true => rfl
            | false => simp [getOrInsert, hactive] at heq
          exact h.sameActivity
            (hobtain.trans (sameActivity_put ((hobtain.active e).trans hactive) c _))
      · next t fault heq =>
          rw [heq] at hobtain
          exact h.sameActivity hobtain

/-- What every run preserves. -/
theorem consistent_run (global scene : UInt32) (actions : List StoreAction) :
    (actions.foldl perform (new global scene)).Consistent global.toNat scene.toNat := by
  have hrun (s : Store) (h : s.Consistent global.toNat scene.toNat) :
      (actions.foldl perform s).Consistent global.toNat scene.toNat := by
    induction actions generalizing s with
    | nil => exact h
    | cons a actions ih => exact ih (s.perform a) (h.perform a)
  exact hrun (new global scene) (consistent_new global scene)

end Invariant

section Answers

variable {global scene : Nat}

/-- The lowest slot of a pool that is not active. -/
structure IsLowestFree (s : Store) (kind : PoolKind) (e : Nat) : Prop where
  owned : (s.pool kind).owns e = true
  inactive : s.isActive e = false
  least : ∀ f, (s.pool kind).owns f = true → s.isActive f = false → e ≤ f

theorem IsLowestFree.unique (he : s.IsLowestFree kind e) (hf : s.IsLowestFree kind f) : e = f :=
  Nat.le_antisymm (he.least f hf.owned hf.inactive) (hf.least e he.owned he.inactive)

/-- An activation that fails changes nothing. -/
theorem activate_eq_of_error {fault : StoreError} (h : (s.activate kind).2 = .error fault) :
    s.activate kind = (s, .error (.exhausted kind)) := by
  rcases s.activate_cases kind with ⟨_, heq⟩ | ⟨p, e, _, heq⟩
  · exact heq
  · rw [heq] at h
    nomatch h

/-- An activation fails exactly when every slot of the pool is active. -/
theorem Consistent.activate_eq_error_iff (h : s.Consistent global scene) :
    s.activate kind = (s, .error (.exhausted kind)) ↔
      ∀ e, (s.pool kind).owns e = true → s.isActive e = true := by
  rw [← (h.tallies kind).allocate_eq_none_iff]
  rcases s.activate_cases kind with ⟨hnone, heq⟩ | ⟨p, e, hsome, heq⟩
  · simp [heq, hnone]
  · simp [heq, hsome]

/-- An activation finds the lowest slot of the pool that is not active. -/
theorem Consistent.activate_eq_ok_iff (h : s.Consistent global scene) :
    (s.activate kind).2 = .ok e ↔ s.IsLowestFree kind e := by
  rcases s.activate_cases kind with ⟨hnone, heq⟩ | ⟨p, f, hsome, heq⟩
  · have hall := (h.tallies kind).allocate_eq_none_iff.mp hnone
    rw [heq]
    refine ⟨fun hok => (nomatch hok), fun hfree => ?_⟩
    have hactive := hall e hfree.owned
    rw [hfree.inactive] at hactive
    exact Bool.noConfusion hactive
  · obtain ⟨howns, hinactive, hleast, _⟩ := (h.tallies kind).allocate hsome
    have hfree : s.IsLowestFree kind f := ⟨howns, hinactive, hleast⟩
    rw [heq]
    refine ⟨fun hok => ?_, fun he => congrArg _ (hfree.unique he)⟩
    obtain rfl := Except.ok.inj hok
    exact hfree

/-- The slot that is activated has no component, and no other slot changes. -/
theorem Consistent.slot_activate (h : s.Consistent global scene)
    (hok : (s.activate kind).2 = .ok e) :
    (s.activate kind).1.slot e = ⟨true, .empty⟩ ∧ SameElsewhere e s (s.activate kind).1 := by
  have hfree := h.activate_eq_ok_iff.mp hok
  have hlt := (h.owns_iff.mp hfree.owned).1
  rcases s.activate_cases kind with ⟨_, heq⟩ | ⟨p, f, _, heq⟩
  · rw [heq] at hok
    nomatch hok
  · rw [heq] at hok ⊢
    obtain rfl := Except.ok.inj hok
    refine ⟨?_, fun i hi => ?_⟩
    · rw [slot_bump, slot_setSlot, capacity_setPool, if_pos ⟨rfl, hlt⟩]
      exact congrArg (Slot.mk true) (h.bare f hfree.inactive)
    · rw [slot_bump, slot_setSlot, if_neg (fun hand => hi hand.1), slot_setPool]

theorem deactivate_snd (s : Store) (e : Nat) : (s.deactivate e).2 = s.isActive e := by
  rcases s.deactivate_cases e with ⟨hactive, heq⟩ | ⟨hactive, heq⟩ <;> rw [heq, hactive]

theorem slot_deactivate (s : Store) (e i : Nat) :
    (s.deactivate e).1.slot i = if i = e ∧ s.isActive e = true then {} else s.slot i := by
  rcases s.deactivate_cases e with ⟨hactive, heq⟩ | ⟨hactive, heq⟩
  · simp [heq, hactive]
  · have hlt := lt_capacity_of_isActive hactive
    rw [heq, slot_bump, slot_setSlot, slot_setPool, capacity_setPool]
    simp [hlt, hactive]

/-- An entity that ends is not active any more. -/
theorem isActive_deactivate (s : Store) (e i : Nat) :
    (s.deactivate e).1.isActive i = true ↔ s.isActive i = true ∧ i ≠ e := by
  rw [isActive, slot_deactivate]
  by_cases hie : i = e
  · subst hie
    cases hactive : s.isActive i with
    | true => simp
    | false => simpa [isActive] using hactive
  · rw [if_neg fun h => hie h.1]
    exact (and_iff_left hie).symm

/-- Slots that are freed one after another: the active ones among them are emptied and
counted. -/
theorem deactivateAll_eq {l : List Nat} (hl : l.Nodup) (s : Store) :
    (s.deactivateAll l).2 = l.countP s.isActive ∧
      ∀ i, (s.deactivateAll l).1.slot i =
        if i ∈ l ∧ s.isActive i = true then {} else s.slot i := by
  induction l generalizing s with
  | nil => simp [Store.deactivateAll]
  | cons e l ih =>
      obtain ⟨he, hl'⟩ := List.nodup_cons.mp hl
      obtain ⟨hcount, hslot⟩ := ih hl' (s.deactivate e).1
      -- the slots of the rest of the list are not that of `e`
      have hrest (i : Nat) (hi : i ∈ l) : (s.deactivate e).1.slot i = s.slot i :=
        sameElsewhere_deactivate s e i (fun hie => he (hie ▸ hi))
      have hsame : l.countP (s.deactivate e).1.isActive = l.countP s.isActive :=
        List.countP_congr fun i hi => by rw [isActive, hrest i hi, isActive]
      refine ⟨?_, fun i => ?_⟩
      · simp only [Store.deactivateAll, deactivate_snd, hcount, hsame, List.countP_cons]
        split <;> rfl
      · simp only [Store.deactivateAll, hslot, List.mem_cons]
        by_cases hi : i ∈ l
        · have hactive : (s.deactivate e).1.isActive i = s.isActive i := by
            rw [isActive, hrest i hi, isActive]
          rw [hactive, hrest i hi]
          simp [hi]
        · rw [if_neg (fun hand => hi hand.1), slot_deactivate]
          by_cases hie : i = e
          · subst hie
            simp
          · simp [hi, hie]

/-- The end of a scene frees the slots of the scene pool and touches no other. -/
theorem resetScene_eq (s : Store) :
    s.resetScene.2 = s.scene.slots.countP s.isActive ∧
      ∀ i, s.resetScene.1.slot i =
        if s.scene.owns i = true ∧ s.isActive i = true then {} else s.slot i := by
  obtain ⟨hcount, hslot⟩ := deactivateAll_eq s.scene.slots_nodup s
  exact ⟨hcount, fun i => (hslot i).trans (if_congr (by rw [Pool.mem_slots]) rfl rfl)⟩

theorem isActive_resetScene (s : Store) (e : Nat) :
    s.resetScene.1.isActive e = (s.isActive e && !s.scene.owns e) := by
  rw [isActive, s.resetScene_eq.2]
  cases hactive : s.isActive e with
  | false => simpa [isActive] using hactive
  | true =>
      cases howns : s.scene.owns e with
      | true => simp
      | false => simpa [isActive] using hactive

end Answers

/-- A store has as many slots as the sizes of its pools make in words. -/
theorem Consistent.capacity_word {global scene : UInt32}
    (h : s.Consistent global.toNat scene.toNat)
    (hword : global.toNat + scene.toNat < UInt32.size) :
    s.capacity = (global + scene).toNat := by
  rw [h.capacity, UInt32.toNat_add, Nat.mod_eq_of_lt hword]

/-- **The slots of the pools.**  Let the number of all slots be a word, as it is in every store.
After every run of operations on a new store, the free slots of a pool are the slots of its range
that are not active, in ascending order and each once; its count is the number of the active ones;
and a slot that is not active has no component.  So an activation finds the lowest slot of the
pool that is not active, which has no component then, and it fails, without a change, exactly when
there is none.  The end of a scene counts and frees the active slots of the scene pool and leaves
those of the global pool as they were. -/
theorem pools_account_for_slots (global scene : UInt32)
    (hword : global.toNat + scene.toNat < UInt32.size) (actions : List StoreAction) :
    let s := actions.foldl perform (new global scene)
    s.capacity = (global + scene).toNat ∧
    (∀ e, s.global.owns e = true ↔ e < global.toNat) ∧
    (∀ e, s.scene.owns e = true ↔ global.toNat ≤ e ∧ e < (global + scene).toNat) ∧
    (∀ kind,
      (s.pool kind).free.Pairwise (· < ·) ∧
      (∀ e, (s.pool kind).free.count e =
        if (s.pool kind).owns e = true ∧ s.isActive e = false then 1 else 0) ∧
      (s.pool kind).activeCount.toNat = ((s.pool kind).slots.filter s.isActive).length) ∧
    (∀ e c, s.isActive e = false → (s.slot e).components.get c = none) ∧
    (∀ kind,
      (∀ e, (s.activate kind).2 = .ok e ↔ s.IsLowestFree kind e) ∧
      (∀ e, (s.activate kind).2 = .ok e →
        (s.activate kind).1.isActive e = true ∧
        (∀ c, (s.activate kind).1.get? c e = none) ∧
        SameElsewhere e s (s.activate kind).1) ∧
      (s.activate kind = (s, .error (.exhausted kind)) ↔
        ∀ e, (s.pool kind).owns e = true → s.isActive e = true) ∧
      ∀ fault, (s.activate kind).2 = .error fault →
        s.activate kind = (s, .error (.exhausted kind))) ∧
    s.resetScene.2 = (s.scene.slots.filter s.isActive).length ∧
    (∀ e, s.resetScene.1.isActive e = (s.isActive e && !s.scene.owns e)) ∧
    ∀ e, s.global.owns e = true → s.resetScene.1.slot e = s.slot e := by
  intro s
  have h : s.Consistent global.toNat scene.toNat := consistent_run global scene actions
  obtain ⟨hcount, hslot⟩ := s.resetScene_eq
  have hcapacity : s.capacity = (global + scene).toNat := h.capacity_word hword
  refine ⟨hcapacity, fun e => h.global_owns_iff, fun e => ?_, fun kind => ⟨?_, fun e => ?_, ?_⟩,
    fun e c he => ?_, fun kind => ⟨fun e => h.activate_eq_ok_iff, fun e hok => ?_, ?_, ?_⟩,
    ?_, s.isActive_resetScene, fun e he => ?_⟩
  · rw [h.scene_owns_iff, hcapacity]
  · exact (h.tallies kind).ascending
  · rw [(h.tallies kind).nodup_free.count]
    exact if_congr ((h.tallies kind).mem_free e) rfl rfl
  · rw [(h.tallies kind).count, List.countP_eq_length_filter]
  · rw [h.bare e he, Components.get_empty]
  · obtain ⟨hslot, helse⟩ := h.slot_activate hok
    refine ⟨by rw [isActive, hslot], fun c => ?_, helse⟩
    simp [get?, hslot]
  · exact h.activate_eq_error_iff
  · exact fun fault => activate_eq_of_error
  · rw [hcount, List.countP_eq_length_filter]
  · rw [hslot, if_neg]
    rintro ⟨hscene, _⟩
    have hlow := h.global_owns_iff.mp he
    have hhigh := (h.scene_owns_iff.mp hscene).1
    omega

/-- One global slot and two of the scene, all activated; the first of the scene is freed, twice,
after it was given a name. -/
def refillActions : List StoreAction :=
  [.activate .scene, .activate .global, .activate .scene, .insert .name 1 "door",
    .deactivate 1, .deactivate 1]

theorem pools_account_for_slots_refill :
    let s := refillActions.foldl perform (new 1 2)
    (1 : UInt32).toNat + (2 : UInt32).toNat < UInt32.size ∧
    (s.activate .scene).2 = .ok 1 ∧
    (∀ c, (s.activate .scene).1.get? c 1 = none) ∧
    s.activate .global = (s, .error (.exhausted .global)) ∧
    s.resetScene.2 = 1 ∧
    s.resetScene.1.slot 0 = s.slot 0 := by
  intro s
  have hword : (1 : UInt32).toNat + (2 : UInt32).toNat < UInt32.size := by decide
  obtain ⟨-, hglobal, -, -, -, hactivate, hreset, -, hkept⟩ :=
    pools_account_for_slots 1 2 hword refillActions
  have hlowest : (s.activate .scene).2 = .ok 1 := by decide +kernel
  have hfull : ∀ e, (s.pool .global).owns e = true → s.isActive e = true := by
    intro e he
    obtain rfl : e = 0 := Nat.lt_one_iff.mp ((hglobal e).mp he)
    decide +kernel
  refine ⟨hword, hlowest, ((hactivate .scene).2.1 1 hlowest).2.1,
    (hactivate .global).2.2.1.mpr hfull, hreset.trans ?_, hkept 0 ((hglobal 0).mpr ?_)⟩
  · decide +kernel
  · decide

end Store

end EntityRules
