import EntityRules.Proofs.Document.Frame
import EntityRules.Proofs.Engine.Runs

/-!
# The entities of a scene

While a scene is brought in, the active slots of the scene are the first ones, so the next
entity takes the slot after them.  What its document makes of it depends on the document and
the slot alone, since a slot that is taken has no component yet.

**Results.**
* `Document.slot_writeTo_congr`: a document makes the same of two entities with the same
  components.
* `Document.lands_activate`: the document of a new entity.
* `Engine.spawn_cases`: all that adding an entity can do.
* `Engine.Loading.populates_foldl`: where the documents of a scene land, and which are dropped.
-/

namespace EntityRules

/-! ## Documents -/

namespace Document

variable {s t : Store} {document : Json} {e : Nat} {k : Components}

theorem sameActivity_writeTo (document : Json) (e : Nat) (s : Store) :
    Store.SameActivity s (writeTo document e s) := by
  simp only [writeTo]
  split
  · next o hwrite => exact sameActivity_of_write hwrite
  · exact Store.SameActivity.refl s

/-- What a document makes of an entity depends on its components alone. -/
theorem slot_writeTo_congr (hs : s.slot e = ⟨true, k⟩) (ht : t.slot e = ⟨true, k⟩) :
    (writeTo document e s).slot e = (writeTo document e t).slot e := by
  rcases planned_write e k document with
    ⟨fault, hfault⟩ | ⟨actions, failures, count, hedits, hplan⟩
  · rw [writeTo, writeTo, hfault s hs, hfault t ht, hs, ht]
  · rw [writeTo, writeTo, hplan s hs, hplan t ht]
    simp only
    rw [Store.slot_performAll hs hedits, Store.slot_performAll ht hedits]

/-- The slot of an entity is what a document makes of a new entity there. -/
def Lands (document : Json) (e : Nat) (s : Store) : Prop :=
  ∀ t : Store, t.slot e = ⟨true, .empty⟩ → s.slot e = (writeTo document e t).slot e

/-- The document of a new entity lands on its slot, which was free, and changes no other slot. -/
theorem lands_activate {global scene : Nat} {kind : PoolKind} (h : s.Consistent global scene)
    (hok : (s.activate kind).2 = .ok e) (document : Json) :
    let t := writeTo document e (s.activate kind).1
    s.isActive e = false ∧ t.isActive e = true ∧ Lands document e t ∧
      Store.SameElsewhere e s t := by
  intro t
  obtain ⟨hslot, helse⟩ := h.slot_activate hok
  have hactive := (sameActivity_writeTo document e (s.activate kind).1).active e
  exact ⟨(h.activate_eq_ok_iff.mp hok).inactive, hactive.trans (Store.isActive_of_slot hslot),
    fun u hu => slot_writeTo_congr hslot hu, helse.trans (sameElsewhere_writeTo document e _)⟩

end Document

namespace Engine

open Document (Lands writeTo)

variable {g : Engine} {document : Json} {e : Nat}

/-- All that adding an entity can do to the core. -/
theorem spawn_cases (g : Engine) (pool : PoolKind) (document : Json) :
    ((∃ fault, (g.store.activate pool).2 = .error fault) ∧
        (g.spawn pool document).2 = none ∧ (g.spawn pool document).1.core = g.core) ∨
      ∃ e, (g.store.activate pool).2 = .ok e ∧ (g.spawn pool document).2 = some e ∧
        (g.spawn pool document).1.core =
          { g.core with store := writeTo document e (g.store.activate pool).1 } := by
  rcases hactivate : g.store.activate pool with ⟨t, e | e⟩
  · left
    simp only [spawn, hactivate]
    exact ⟨⟨_, rfl⟩, trivial, rfl⟩
  · right
    refine ⟨e, rfl, ?_⟩
    cases hwrite : Document.write document e t with
    | ok o =>
        simp only [spawn, hactivate, hwrite, writeTo]
        exact ⟨trivial, rfl⟩
    | error fault =>
        simp only [spawn, hactivate, hwrite, writeTo]
        exact ⟨trivial, rfl⟩

section Filling

variable {config : Config} {k : Nat} {s t : Store}

/-- The first slots of the scene are active and its others are not. -/
structure Filled (config : Config) (k : Nat) (s : Store) : Prop where
  consistent : s.Consistent config.globalEntities.toNat config.sceneEntities.toNat
  fits : k ≤ config.sceneEntities.toNat
  active : ∀ e, config.globalEntities.toNat ≤ e →
    (s.isActive e = true ↔ e < config.globalEntities.toNat + k)

theorem Filled.isLowestFree (h : Filled config k s) (hk : k < config.sceneEntities.toNat) :
    s.IsLowestFree .scene (config.globalEntities.toNat + k) := by
  have hcapacity := h.consistent.capacity
  refine ⟨?_, ?_, ?_⟩
  · refine h.consistent.scene_owns_iff.mpr ⟨Nat.le_add_right _ _, ?_⟩
    omega
  · refine Bool.eq_false_iff.mpr fun hactive => ?_
    have hlt := (h.active _ (Nat.le_add_right _ _)).mp hactive
    omega
  · intro f hf hinactive
    have hlow := (h.consistent.scene_owns_iff.mp hf).1
    refine Nat.le_of_not_lt fun hlt => ?_
    rw [(h.active f hlow).mpr hlt] at hinactive
    exact Bool.noConfusion hinactive

/-- When all slots of the scene are active, an activation there fails. -/
theorem Filled.activate_error (h : Filled config k s) (hk : config.sceneEntities.toNat ≤ k) :
    (s.activate .scene).2 = .error (.exhausted .scene) := by
  have hcapacity := h.consistent.capacity
  have hall : ∀ e, (s.pool .scene).owns e = true → s.isActive e = true := by
    intro e he
    obtain ⟨hlow, hhigh⟩ := h.consistent.scene_owns_iff.mp he
    refine (h.active e hlow).mpr ?_
    omega
  rw [h.consistent.activate_eq_error_iff.mpr hall]

/-- The next slot of the scene is taken and its document is written. -/
theorem Filled.next (h : Filled config k s) (hk : k < config.sceneEntities.toNat)
    (document : Json) :
    let e := config.globalEntities.toNat + k
    let t := writeTo document e (s.activate .scene).1
    (s.activate .scene).2 = .ok e ∧ Filled config (k + 1) t ∧ Lands document e t ∧
      Store.SameElsewhere e s t := by
  intro e t
  have hok : (s.activate .scene).2 = .ok e :=
    h.consistent.activate_eq_ok_iff.mpr (h.isLowestFree hk)
  obtain ⟨-, hactive, hlands, hsame⟩ := Document.lands_activate h.consistent hok document
  have hwritten := Document.sameActivity_writeTo document e (s.activate .scene).1
  refine ⟨hok, ⟨(h.consistent.activate .scene).sameActivity hwritten, hk, fun i hi => ?_⟩,
    hlands, hsame⟩
  by_cases hie : i = e
  · rw [hie]
    exact iff_of_true hactive (Nat.lt_succ_self _)
  · have hslots : t.isActive i = s.isActive i := by
      rw [Store.isActive, hsame i hie, Store.isActive]
    rw [hslots, h.active i hi]
    omega

end Filling

namespace Loading

variable {config : Config} {k : Nat} {l m : Loading}

/-- What the documents of a scene lead to, from a loading in which `k` slots of the scene are
active: they land on the slots after these, in order, as long as there are any, and the rest
are dropped.  Nothing else changes. -/
structure Populates (config : Config) (k : Nat) (documents : List Json) (l m : Loading) : Prop where
  filled : Filled config
    (k + min documents.length (config.sceneEntities.toNat - k)) m.engine.store
  lands : ∀ i document, documents[i]? = some document → k + i < config.sceneEntities.toNat →
    Lands document (config.globalEntities.toNat + (k + i)) m.engine.store
  before : ∀ e, e < config.globalEntities.toNat + k → m.engine.store.slot e = l.engine.store.slot e
  core : m.engine.core = { l.engine.core with store := m.engine.store }
  summary : m.summary =
    { l.summary with
      entities :=
        l.summary.entities + min documents.length (config.sceneEntities.toNat - k)
      dropped :=
        l.summary.dropped + (documents.length - (config.sceneEntities.toNat - k)) }

theorem populates_nil (h : Filled config k l.engine.store) : Populates config k [] l l where
  filled := by simpa using h
  lands i document hi := by simp at hi
  before e _ := rfl
  core := rfl
  summary := by simp

theorem addEntity_of_some {g' : Engine} {document : Json} {e : Nat}
    (h : (l.engine.spawn .scene document).2 = some e)
    (hg' : (l.engine.spawn .scene document).1 = g') :
    l.addEntity document = ⟨g', { l.summary with entities := l.summary.entities + 1 }⟩ := by
  rcases hspawn : l.engine.spawn .scene document with ⟨g, answer⟩
  rw [hspawn] at h hg'
  obtain rfl : answer = some e := h
  obtain rfl : g = g' := hg'
  rw [addEntity, hspawn]

theorem addEntity_of_none {g' : Engine} {document : Json}
    (h : (l.engine.spawn .scene document).2 = none)
    (hg' : (l.engine.spawn .scene document).1 = g') :
    l.addEntity document = l.drop g' := by
  rcases hspawn : l.engine.spawn .scene document with ⟨g, answer⟩
  rw [hspawn] at h hg'
  obtain rfl : answer = none := h
  obtain rfl : g = g' := hg'
  rw [addEntity, hspawn]

/-- A document for which there is a slot lands there. -/
theorem populates_cons_of_lt {document : Json} {documents : List Json}
    (h : Filled config k l.engine.store) (hk : k < config.sceneEntities.toNat)
    (hrest : Filled config (k + 1) (l.addEntity document).engine.store →
      Populates config (k + 1) documents (l.addEntity document) m) :
    Populates config k (document :: documents) l m := by
  obtain ⟨hok, hfilled, hlands, hsame⟩ := h.next hk document
  rcases l.engine.spawn_cases .scene document with ⟨⟨fault, hfault⟩, _⟩ | ⟨e, he, hsome, hcore⟩
  · rw [hok] at hfault
    nomatch hfault
  · obtain rfl := Except.ok.inj (hok.symm.trans he)
    have hadd := addEntity_of_some hsome rfl
    have hstore : (l.addEntity document).engine.store =
        writeTo document (config.globalEntities.toNat + k) (l.engine.store.activate .scene).1 := by
      rw [hadd]
      exact congrArg Core.store hcore
    rw [← hstore] at hfilled hlands hsame
    have hm := hrest hfilled
    refine ⟨?_, ?_, ?_, ?_, ?_⟩
    · have hcount : k + min (document :: documents).length (config.sceneEntities.toNat - k) =
          k + 1 + min documents.length (config.sceneEntities.toNat - (k + 1)) := by
        simp only [List.length_cons]
        omega
      rw [hcount]
      exact hm.filled
    · intro i other hi hlt
      cases i with
      | zero =>
          obtain rfl : document = other := by simpa using hi
          -- the documents after it leave the slot of the first one alone
          intro t ht
          rw [Nat.add_zero] at ht ⊢
          rw [hm.before _ (by omega)]
          exact hlands t ht
      | succ i =>
          have hland := hm.lands i other (by simpa using hi) (by omega)
          have hindex : k + (i + 1) = k + 1 + i := by omega
          rw [hindex]
          exact hland
    · intro i hi
      rw [hm.before i (by omega), hsame i (by omega)]
    · rw [hm.core, hadd]
      simp only [hcore]
    · rw [hm.summary, hadd]
      simp only [List.length_cons, SceneSummary.mk.injEq, true_and]
      omega

/-- A document for which there is no slot is dropped. -/
theorem populates_cons_of_le {document : Json} {documents : List Json}
    (h : Filled config k l.engine.store) (hk : config.sceneEntities.toNat ≤ k)
    (hrest : Filled config k (l.addEntity document).engine.store →
      Populates config k documents (l.addEntity document) m) :
    Populates config k (document :: documents) l m := by
  have herror := h.activate_error hk
  rcases l.engine.spawn_cases .scene document with ⟨_, hnone, hcore⟩ | ⟨e, he, _⟩
  · have hadd := addEntity_of_none hnone rfl
    have hstore : (l.addEntity document).engine.store = l.engine.store := by
      rw [hadd]
      exact congrArg Core.store hcore
    have hm := hrest (hstore ▸ h)
    have hroom : config.sceneEntities.toNat - k = 0 := by omega
    refine ⟨?_, ?_, ?_, ?_, ?_⟩
    · have hfilled := hm.filled
      rw [hroom, Nat.min_zero] at hfilled ⊢
      exact hfilled
    · intro i other _ hlt
      omega
    · intro i hi
      rw [hm.before i hi, hstore]
    · rw [hm.core, hadd, drop]
      simp only [hcore]
    · rw [hm.summary, hadd, hroom]
      simp only [drop, List.length_cons, Nat.min_zero, Nat.sub_zero, SceneSummary.mk.injEq,
        true_and]
      omega
  · rw [herror] at he
    nomatch he

/-- The documents of a scene, one after another. -/
theorem populates_foldl (h : Filled config k l.engine.store) (documents : List Json) :
    Populates config k documents l (documents.foldl addEntity l) := by
  induction documents generalizing k l with
  | nil => exact populates_nil h
  | cons document documents ih =>
      by_cases hk : k < config.sceneEntities.toNat
      · exact populates_cons_of_lt h hk fun hfilled => ih hfilled
      · exact populates_cons_of_le h (Nat.le_of_not_lt hk) fun hfilled => ih hfilled

end Loading
end Engine
end EntityRules
