import EntityRules.Proofs.Selector.Meaning
import EntityRules.Proofs.Selector.Watch

/-!
# What the sets of tracked selectors contain

After a match the set of a selector contains the active entities that the selector describes,
where the events are those that live by the history.  A refresh may leave out the match; this
never shows, since the sets and the first matches are then what a recalculation would give.

**Results.**
* `found_after_match`: the sets just after a recalculation or a match.
* `refresh_agrees_recalculate`: a refresh against an unconditional recalculation.
-/

namespace EntityRules

section Sets

variable {s : Store} {v : Events} {t : Tracked}

/-- A set that shows the present lists the selected entities in ascending order. -/
theorem Tracked.Shows.members_eq (h : t.Shows s v) (hroom : s.capacity ≤ t.found.bound) :
    t.found.members = t.selector.selected s v := by
  have hsorted : (t.selector.selected s v).Pairwise (· < ·) :=
    (List.pairwise_lt_range.filter _).filter _
  refine t.found.members_pairwise.eq_of_mem_iff hsorted (fun e => ?_)
  rw [EntitySet.mem_members, ← h, Tracked.contains_rematch hroom, Selector.selected,
    List.mem_filter, Store.mem_actives]

/-- The first match, found by going through the store, is the least member of the set. -/
theorem Tracked.Shows.first?_eq (h : t.Shows s v) (hroom : s.capacity ≤ t.found.bound) :
    t.found.first? = s.actives.find? (t.selector.selects s v) := by
  rw [EntitySet.first?, h.members_eq hroom, Selector.selected, List.head?_filter]

theorem Registry.exists_tracked {r : Registry} {slot : Nat} {selector : Selector}
    {found : EntitySet}
    (hselector : r.selector? slot = some selector)
    (hfound : r.found? slot = some found) :
    ∃ t, r.slots.get? slot = some t ∧ t.selector = selector ∧ t.found = found := by
  obtain ⟨t, ht, rfl⟩ := Option.map_eq_some_iff.mp hselector
  obtain ⟨t', ht', rfl⟩ := Option.map_eq_some_iff.mp hfound
  obtain rfl := Option.some.inj (ht.symm.trans ht')
  exact ⟨t, ht, rfl, rfl⟩

theorem Registry.isFresh_iff {r : Registry} {s : Store} :
    r.isFresh s = true ↔
      r.seenRevision = some s.revision ∧ r.newSelectors = false ∧ r.pulseLive = false ∧
        r.pending.isEmpty = true := by
  simp [isFresh, and_assoc]

end Sets

namespace Watch

variable {w : Watch} {slot : Nat} {t : Tracked}

theorem Sound.room (h : w.Sound) (ht : w.registry.slots.get? slot = some t) :
    w.store.capacity ≤ t.found.bound := by
  refine Nat.le_of_not_lt fun hlt => ?_
  have hroom := EntitySet.lt_bound_withCapacity (h.capacity ▸ hlt)
  rw [EntitySet.bound, EntitySet.bound, h.sized.found slot t ht] at hroom
  omega

/-- By the history, what the evaluator answers for a flat selector is its meaning. -/
theorem Sound.selects_iff_meets (h : w.Sound) {selector : Selector} (hflat : selector.Flat)
    {e : Nat} (he : w.store.isActive e = true) :
    selector.selects w.store w.registry.events e = true ↔
      selector.Meets (Atom.Describes w.store (Mark.Lives w.marks) e) := by
  have hlt : e < w.registry.entityCapacity := by
    rw [h.capacity]
    exact Store.lt_capacity_of_isActive he
  rw [Selector.selects_iff_meets w.store w.registry.events e hflat]
  exact Selector.meets_congr
    (Atom.describes_congr fun kind => h.records.lives kind e hlt) selector

theorem Sound.contains_iff_selects (h : w.Sound)
    (ht : w.registry.slots.get? slot = some t)
    (hshows : t.Shows w.store w.registry.events) (e : Nat) :
    t.found.contains e = true ↔
      w.store.isActive e = true ∧ t.selector.selects w.store w.registry.events e = true := by
  rw [← hshows]
  exact Tracked.contains_rematch (h.room ht) e

theorem Sound.contains_iff_meets (h : w.Sound)
    (ht : w.registry.slots.get? slot = some t)
    (hshows : t.Shows w.store w.registry.events)
    (hflat : t.selector.Flat) (e : Nat) :
    t.found.contains e = true ↔
      w.store.isActive e = true ∧
        t.selector.Meets (Atom.Describes w.store (Mark.Lives w.marks) e) := by
  rw [h.contains_iff_selects ht hshows]
  exact and_congr_right fun he => h.selects_iff_meets hflat he

/-- A recalculation and a match both leave sets that show the present. -/
theorem shows_of_match {last : RegistryAction}
    (hlast : last = .recalculate ∨ last = .rematch)
    (ht : (w.step (.registry last)).registry.slots.get? slot = some t) :
    t.Shows w.store (w.step (.registry last)).registry.events := by
  rcases hlast with rfl | rfl
  · exact Registry.shows_rematch (r := w.registry.advance) ht
  · exact Registry.shows_rematch (r := w.registry) ht

/-- **The sets after a match.**  The selectors in question are flat, which includes all that can
be read and all refinements of such.  Just after a recalculation or a match, the set of a
tracked selector contains the active entities that the selector describes by the present names
and tags and by the events that live, and the first match is its least member. -/
theorem found_after_match :
    (∀ text selector, Selector.read text = .ok selector → selector.Flat) ∧
    (∀ base next : Selector, base.Flat → next.Flat → (base.refinedBy next).Flat) ∧
    ∀ (w : Watch) (last : RegistryAction),
      w.Reached →
      last = .recalculate ∨ last = .rematch →
      ∀ slot selector found,
        (w.step (.registry last)).registry.selector? slot = some selector →
        (w.step (.registry last)).registry.found? slot = some found →
        selector.Flat →
        (∀ e, found.contains e = true ↔
          w.store.isActive e = true ∧
            selector.Meets
              (Atom.Describes w.store (Mark.Lives (w.step (.registry last)).marks) e)) ∧
        (w.step (.registry last)).registry.firstMatch? selector w.store = found.first? := by
  refine ⟨fun _ _ => Selector.flat_of_read, fun _ _ => Selector.flat_refinedBy, ?_⟩
  intro w last hw hlast slot selector found hselector hfound hflat
  obtain ⟨t, ht, rfl, rfl⟩ := Registry.exists_tracked hselector hfound
  have hsound := hw.sound.step (.registry last)
  have hshows := shows_of_match hlast ht
  exact ⟨hsound.contains_iff_meets ht hshows hflat, (hshows.first?_eq (hsound.room ht)).symm⟩

/-- An active entity with the tag `door` and a waiting event, and a selector that asks for
both. -/
def pulsedDoor : Watch :=
  (new 1 2 2).run
    [.store (.activate .scene),
      .store (.insert .tags 1 (.ofList ["door"])),
      .registry (.track (.refined (.event .enter) (.atom (.tag "door")))),
      .registry (.pulse .enter 1)]

theorem found_after_match_pulsedDoor :
    pulsedDoor.store.isActive 1 = true ∧
    (Selector.refined (.event .enter) (.atom (.tag "door"))).Meets
      (Atom.Describes pulsedDoor.store
        (Mark.Lives (pulsedDoor.step (.registry .recalculate)).marks) 1) := by
  have hreached : pulsedDoor.Reached := (Reached.new 1 2 2).run _
  have h := found_after_match.2.2 pulsedDoor .recalculate hreached (Or.inl rfl)
    0 (.refined (.event .enter) (.atom (.tag "door"))) ⟨1, 2, 1⟩
    (by decide +kernel) (by decide +kernel) (.refined _ (.atom _))
  exact (h.1 1).mp (by decide)

/-- Fresh sets show the present, and a recalculation would find no event. -/
theorem Sound.of_isFresh (h : w.Sound) (hfresh : w.registry.isFresh w.store = true) :
    (∀ slot t, w.registry.slots.get? slot = some t → t.Shows w.store w.registry.events) ∧
      ∀ kind e, (w.registry.pending.get kind).contains e =
        (w.registry.events.get kind).contains e := by
  obtain ⟨hrev, hnew, hlive, hpending⟩ := Registry.isFresh_iff.mp hfresh
  refine ⟨h.upToDate.shown hrev hnew hlive, fun kind e => ?_⟩
  rw [h.upToDate.quiet hlive kind e, h.sized.pending.isEmpty_iff_quiet.mp hpending kind e]

theorem Sound.slots_recalculate (h : w.Sound) (hfresh : w.registry.isFresh w.store = true) :
    (w.registry.recalculate w.store).slots = w.registry.slots := by
  obtain ⟨hshows, hevents⟩ := h.of_isFresh hfresh
  refine Column.ext_get? (Registry.size_slots_recalculate _ _) (fun slot => ?_)
  rw [Registry.get?_recalculate]
  cases ht : w.registry.slots.get? slot with
  | none => rfl
  | some t =>
      rw [Option.map_some,
        Tracked.rematch_congr (Store.SameSelection.refl w.store) hevents t,
        (hshows slot t ht).rematch_eq]

theorem Sound.firstMatch?_recalculate (h : w.Sound)
    (hfresh : w.registry.isFresh w.store = true) (selector : Selector) :
    (w.registry.recalculate w.store).firstMatch? selector w.store =
      w.registry.firstMatch? selector w.store := by
  obtain ⟨_, hevents⟩ := h.of_isFresh hfresh
  have hselects : selector.selects w.store w.registry.pending =
      selector.selects w.store w.registry.events := by
    funext e
    exact Selector.selects_congr (Store.SameSelection.refl w.store) hevents selector e
  exact congrArg (w.store.actives.find? ·) hselects

/-- **A refresh against a recalculation.**  After every run of operations, a refresh leaves the
same selectors with the same sets and gives the same first matches as a recalculation.  When
the registry is fresh, the set of every tracked selector already contains the active entities
that satisfy it now, by the evaluator and, for a flat selector, by its meaning. -/
theorem refresh_agrees_recalculate (w : Watch) (hw : w.Reached) :
    (w.registry.refresh w.store).1.slots = (w.registry.recalculate w.store).slots ∧
    (∀ selector,
      (w.registry.refresh w.store).1.firstMatch? selector w.store =
        (w.registry.recalculate w.store).firstMatch? selector w.store) ∧
    (w.registry.isFresh w.store = true →
      ∀ slot selector found,
        w.registry.selector? slot = some selector →
        w.registry.found? slot = some found →
        (∀ e, found.contains e = true ↔
          w.store.isActive e = true ∧
            selector.selects w.store w.registry.events e = true) ∧
        (selector.Flat → ∀ e, found.contains e = true ↔
          w.store.isActive e = true ∧
            selector.Meets (Atom.Describes w.store (Mark.Lives w.marks) e))) := by
  have hsound := hw.sound
  refine ⟨?_, fun selector => ?_, ?_⟩
  · cases hfresh : w.registry.isFresh w.store with
    | true => simpa [Registry.refresh, hfresh] using (hsound.slots_recalculate hfresh).symm
    | false => simp [Registry.refresh, hfresh]
  · cases hfresh : w.registry.isFresh w.store with
    | true =>
        simpa [Registry.refresh, hfresh] using
          (hsound.firstMatch?_recalculate hfresh selector).symm
    | false => simp [Registry.refresh, hfresh]
  · intro hfresh slot selector found hselector hfound
    obtain ⟨t, ht, rfl, rfl⟩ := Registry.exists_tracked hselector hfound
    have hshows := (hsound.of_isFresh hfresh).1 slot t ht
    exact ⟨hsound.contains_iff_selects ht hshows, hsound.contains_iff_meets ht hshows⟩

/-- An active entity with the tag `door`, found by a selector that has been refreshed. -/
def settledDoor : Watch :=
  (new 1 2 2).run
    [.store (.activate .scene),
      .store (.insert .tags 1 (.ofList ["door"])),
      .registry (.track (.atom (.tag "door"))),
      .registry .refresh]

theorem refresh_agrees_recalculate_settledDoor :
    settledDoor.registry.isFresh settledDoor.store = true ∧
    (Selector.atom (.tag "door")).selects settledDoor.store settledDoor.registry.events 1 = true ∧
    (settledDoor.registry.refresh settledDoor.store).1.slots =
      (settledDoor.registry.recalculate settledDoor.store).slots := by
  have hreached : settledDoor.Reached := (Reached.new 1 2 2).run _
  have hfresh : settledDoor.registry.isFresh settledDoor.store = true := by
    decide
  have h := refresh_agrees_recalculate settledDoor hreached
  have hfound := h.2.2 hfresh 0 (.atom (.tag "door")) ⟨1, 2, 1⟩
    (by decide +kernel) (by decide +kernel)
  exact ⟨hfresh, ((hfound.1 1).mp (by decide)).2, h.1⟩

end Watch
end EntityRules
