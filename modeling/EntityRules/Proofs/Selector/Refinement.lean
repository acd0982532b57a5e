import EntityRules.Proofs.Selector.Canonical
import EntityRules.Proofs.Selector.Meaning

/-!
# Refined selectors

In a text `A:B` the whole chain before the `:` is narrowed.  `refinedBy` narrows the head of a chain
only: the refinement that was there is replaced, so a chain of several atoms forgets all but its
first.  A union can be given as a refinement as well.  It then stands in last place of the chain,
where the evaluator follows it and `usesEvents` does not look.

**Results.**
* `exists_head`: a chain as a refined chain sees it.
* `exists_denotes_refined`: the text of a chain with the text of another after it.
* `refinedBy_narrows_iff`: the chains that `refinedBy` narrows; `refinedBy_drops_links`: one that it
  widens.
* `Built.unions`: in what is built from texts, atoms and refinements the members of a union are
  chains of atoms.
* `headIsEvent_of_usesEvents`, `headIsEvent_of_tails`: where `usesEvents` looks.
* `selects_eq_of_no_events`: selectors on which events do not bear; `usesEvents_misses_union`: one
  on which they do, although `usesEvents` denies it.
-/

namespace EntityRules

/-- An atom that asks for no event does not look at the events. -/
theorem Atom.holds_eq_of_not_isEvent {head : Atom} (h : head.isEvent = false) (s : Store)
    (v w : Events) (e : Nat) : head.holds s v e = head.holds s w e := by
  cases head with
  | id name | tag name => rfl
  | event kind => nomatch h

namespace Selector

variable {p q : Atom → Bool} {base next chain link selector : Selector} {chains : List Selector}

section Refinement

theorem linkHolds_of_holds (h : holds p base = true) : linkHolds p base = true := by
  cases base with
  | atom head => exact h
  | refined head next =>
      rw [holds, Bool.and_eq_true] at h
      exact h.1
  | union chains => exact h

/-- Of a chain only the head is left when it is refined. -/
theorem exists_head (h : ¬base.IsUnion) :
    ∃ head, (∀ p, linkHolds p base = p head) ∧
      ∀ next, base.refinedBy next = .refined head next := by
  cases base with
  | atom head => exact ⟨head, fun _ => rfl, fun _ => rfl⟩
  | refined head _ => exact ⟨head, fun _ => rfl, fun _ => rfl⟩
  | union chains => exact absurd trivial h

/-- The text of a chain, a `:` and the text of another chain are read as a chain that holds when
both do. -/
theorem exists_denotes_refined (hbase : IsChain base) (hnext : IsChain next) :
    ∃ chain, Denotes (base.text.toList ++ ':' :: next.text.toList) [chain] ∧
      ∀ p, holds p chain = (holds p base && holds p next) := by
  rw [text_eq_chainText hbase]
  induction hbase with
  | @atom head hhead =>
      have hleaf := leaf_text hhead
      refine ⟨.refined head next, ?_, fun p => rfl⟩
      rw [chainText, denotes_colon_iff hleaf.not_isSeparator (hleaf.trim_eq.symm ▸ hleaf)]
      exact ⟨[next], hnext.denotes_text, rfl⟩
  | @refined head inner hhead _ ih =>
      obtain ⟨chain, hchain, hholds⟩ := ih
      have hleaf := leaf_text hhead
      have htext : (chainText (.refined head inner)).toList ++ ':' :: next.text.toList =
          head.text.toList ++ ':' :: ((chainText inner).toList ++ ':' :: next.text.toList) := by
        simp [chainText]
      refine ⟨.refined head chain, ?_, fun p => ?_⟩
      · rw [htext, denotes_colon_iff hleaf.not_isSeparator (hleaf.trim_eq.symm ▸ hleaf)]
        exact ⟨[chain], hchain, rfl⟩
      · rw [holds, holds, hholds, Bool.and_assoc]

/-- Refined by another, a selector selects the active entities that both select. -/
def Narrows (base next : Selector) : Prop :=
  ∀ s v e, s.isActive e = true → ((base.refinedBy next).selects s v e = true ↔
    base.selects s v e = true ∧ next.selects s v e = true)

/-- **Which chains a refinement narrows.**  A refined chain selects what its head and the
refinement select.  So nothing is lost that the chain and the refinement select, and a single atom
is narrowed by every refinement; a longer chain is narrowed by every refinement exactly if it
selects all that its head does.  In a text the whole chain before a `:` is narrowed. -/
theorem refinedBy_narrows_iff (hbase : ¬base.IsUnion) :
    (∀ next s v e, (base.refinedBy next).selects s v e = true ↔
      linkHolds (Atom.holds s v e) base = true ∧ next.selects s v e = true) ∧
    (∀ next s v e, base.selects s v e = true → next.selects s v e = true →
      (base.refinedBy next).selects s v e = true) ∧
    (base.next? = none → ∀ next, Narrows base next) ∧
    ((∀ next, Narrows base next) ↔ ∀ s v e, s.isActive e = true →
      linkHolds (Atom.holds s v e) base = true → base.selects s v e = true) ∧
    (IsChain base → ∀ next, IsChain next →
      ∃ chain, read (base.text ++ ":" ++ next.text) = .ok chain ∧
        ∀ s v e, chain.selects s v e = true ↔
          base.selects s v e = true ∧ next.selects s v e = true) := by
  obtain ⟨head, hhead, hbuild⟩ := exists_head hbase
  have hrefined (next s v e) : (base.refinedBy next).selects s v e = true ↔
      linkHolds (Atom.holds s v e) base = true ∧ next.selects s v e = true := by
    rw [hbuild, hhead, selects, holds, Bool.and_eq_true]
    rfl
  have hwhole (h : ∀ s v e, s.isActive e = true → linkHolds (Atom.holds s v e) base = true →
      base.selects s v e = true) (next : Selector) : Narrows base next := by
    intro s v e hactive
    rw [hrefined]
    exact and_congr_left fun _ => ⟨h s v e hactive, linkHolds_of_holds⟩
  refine ⟨hrefined, ?_, ?_, ⟨?_, hwhole⟩, ?_⟩
  · intro next s v e hb hn
    exact (hrefined next s v e).mpr ⟨linkHolds_of_holds hb, hn⟩
  · intro hnone
    refine hwhole fun s v e _ hholds => ?_
    cases base with
    | atom head => exact hholds
    | refined head next => cases hnone
    | union chains => exact absurd trivial hbase
  · intro hlaw s v e hactive hholds
    -- refined by its own head the chain selects what the head does
    have hself : (Selector.atom head).selects s v e = true := (hhead _).symm.trans hholds
    exact ((hlaw _ s v e hactive).mp ((hrefined _ s v e).mpr ⟨hholds, hself⟩)).1
  · intro hchain next hnext
    obtain ⟨chain, hdenotes, hholds⟩ := exists_denotes_refined hchain hnext
    refine ⟨chain, (read_iff_denotes _ _).mpr ⟨[chain], ?_, rfl⟩, fun s v e => ?_⟩
    · simpa using hdenotes
    · rw [selects, hholds, Bool.and_eq_true]
      rfl

/-- The open doors, and the lit entities. -/
def openDoor : Selector := .refined (.tag "door") (.atom (.tag "open"))

def lit : Selector := .atom (.tag "lit")

/-- A store with a lit door that is not open. -/
def litDoorStore : Store :=
  (((Store.new 0 1).activate .scene).1.insert .tags 0 (.ofList ["door", "lit"])).1

theorem refinedBy_narrows_iff_lit :
    ¬lit.IsUnion ∧ ∀ next, Narrows lit next := by
  have hlit : ¬lit.IsUnion := fun h => h
  exact ⟨hlit, (refinedBy_narrows_iff hlit).2.2.1 rfl⟩

/-- Refined by what is lit, the open doors become the lit doors. -/
theorem refinedBy_drops_links :
    read "#door:#open" = .ok openDoor ∧ read "#lit" = .ok lit ∧ ¬openDoor.IsUnion ∧
    litDoorStore.isActive 0 = true ∧
    (openDoor.refinedBy lit).selects litDoorStore (.withCapacity 1) 0 = true ∧
    openDoor.selects litDoorStore (.withCapacity 1) 0 = false ∧ ¬Narrows openDoor lit := by
  have hactive : litDoorStore.isActive 0 = true := by decide
  have hrefined : (openDoor.refinedBy lit).selects litDoorStore (.withCapacity 1) 0 = true := by
    decide
  have hbase : openDoor.selects litDoorStore (.withCapacity 1) 0 = false := by decide
  refine ⟨by decide +kernel, by decide +kernel, fun h => h, hactive, hrefined, hbase, ?_⟩
  intro hlaw
  have hboth := ((hlaw litDoorStore (.withCapacity 1) 0 hactive).mp hrefined).1
  rw [hbase] at hboth
  exact Bool.noConfusion hboth

end Refinement

section Tails

/-- What can be built from texts and atoms by refining. -/
inductive Built : Selector → Prop
  | read {text : String} {selector : Selector} (h : read text = .ok selector) : Built selector
  | id (name : String) : Built (.atom (.id name))
  | tag (name : String) : Built (.atom (.tag name))
  | event (kind : EventKind) : Built (.atom (.event kind))
  | refinedBy {base next : Selector} (hbase : Built base) (hnext : Built next) :
      Built (base.refinedBy next)

/-- No union stands in a chain of atoms. -/
theorem IsChain.not_isUnion (h : IsChain chain) : ∀ link ∈ chain.tails, ¬link.IsUnion := by
  induction h with
  | atom hhead =>
      intro link hlink
      rw [List.mem_singleton.mp hlink]
      exact fun h => h
  | refined hhead _ ih =>
      intro link hlink
      rcases List.mem_cons.mp hlink with rfl | hlink
      · exact fun h => h
      · exact ih link hlink

/-- Where a union stands in what is built, its members are chains of atoms. -/
theorem Built.unions (h : Built selector) (hmem : .union chains ∈ selector.tails) :
    ∀ chain ∈ chains, ∀ link ∈ chain.tails, ¬link.IsUnion := by
  induction h with
  | read hread =>
      cases canonical_of_read hread with
      | chain hchain => exact absurd trivial (hchain.not_isUnion _ hmem)
      | union _ hchains =>
          obtain rfl := Selector.union.inj (List.mem_singleton.mp hmem)
          exact fun chain hchain => (hchains chain hchain).not_isUnion
  | id | tag | event => nomatch List.mem_singleton.mp hmem
  | @refinedBy base next _ _ ihbase ihnext =>
      cases base with
      | atom head | refined head _ =>
          rcases List.mem_cons.mp hmem with heq | hmem
          · nomatch heq
          · exact ihnext hmem
      | union chains => exact ihbase hmem

theorem mem_tails_self (selector : Selector) : selector ∈ selector.tails := by
  cases selector <;> exact List.mem_cons_self

theorem holds_eq_of_tails (h : ∀ link ∈ selector.tails, linkHolds p link = linkHolds q link) :
    holds p selector = holds q selector := by
  rw [Bool.eq_iff_iff, holds_iff_tails, holds_iff_tails]
  exact forall₂_congr fun link hlink => by rw [h link hlink]

/-- The members of a union decide it, if they are chains. -/
theorem someHolds_eq (hunion : ∀ chain ∈ chains, ¬chain.IsUnion)
    (h : ∀ chain ∈ chains, holds p chain = holds q chain) :
    someHolds p chains = someHolds q chains := by
  rw [Bool.eq_iff_iff, someHolds_iff p chains hunion, someHolds_iff q chains hunion]
  exact exists_congr fun chain => and_congr_right fun hchain => by rw [h chain hchain]

/-- `usesEvents` looks at the head of every link of a chain. -/
theorem headIsEvent_of_usesEvents (h : selector.usesEvents = false)
    (hchain : chain ∈ selector.chains) (hunion : ¬chain.IsUnion) (hlink : link ∈ chain.tails) :
    link.headIsEvent = false := by
  rw [usesEvents, List.any_eq_false] at h
  have hnone := h chain hchain
  rw [Bool.not_eq_true, List.any_eq_false, links_eq_tails hunion] at hnone
  exact Bool.eq_false_iff.mpr (hnone link hlink)

/-- Of the tails of a selector `usesEvents` sees all but a union in last place. -/
theorem headIsEvent_of_tails (h : selector.usesEvents = false) (hunion : ¬link.IsUnion)
    (hlink : link ∈ selector.tails) : link.headIsEvent = false := by
  cases selector with
  | atom head => exact headIsEvent_of_usesEvents h List.mem_cons_self (fun h => h) hlink
  | refined head next => exact headIsEvent_of_usesEvents h List.mem_cons_self (fun h => h) hlink
  | union chains =>
      rw [List.mem_singleton.mp hlink] at hunion
      exact absurd trivial hunion

end Tails

section Events

variable (s : Store) (v w : Events) (e : Nat)

/-- A link whose head asks for no event does not look at the events. -/
theorem linkHolds_eq_of_headIsEvent (hunion : ¬link.IsUnion) (h : link.headIsEvent = false) :
    linkHolds (Atom.holds s v e) link = linkHolds (Atom.holds s w e) link := by
  cases link with
  | atom head | refined head next => exact Atom.holds_eq_of_not_isEvent h s v w e
  | union chains => exact absurd trivial hunion

/-- A union of chains of atoms in which `usesEvents` finds no event does not look at the events. -/
theorem someHolds_eq_of_usesEvents
    (hmembers : ∀ chain ∈ chains, ∀ link ∈ chain.tails, ¬link.IsUnion)
    (h : (union chains).usesEvents = false) :
    someHolds (Atom.holds s v e) chains = someHolds (Atom.holds s w e) chains := by
  have hunion : ∀ chain ∈ chains, ¬chain.IsUnion := fun chain hchain =>
    hmembers chain hchain chain (mem_tails_self chain)
  refine someHolds_eq hunion fun chain hchain => holds_eq_of_tails fun link hlink => ?_
  exact linkHolds_eq_of_headIsEvent s v w e (hmembers chain hchain link hlink)
    (headIsEvent_of_usesEvents h hchain (hunion chain hchain) hlink)

/-- **Selectors on which events do not bear.**  If `usesEvents` finds no event in a selector that is
built from texts and atoms by refining, nor in the union in last place of it, if there is one, then
the selector selects the same entities whatever the events. -/
theorem selects_eq_of_no_events (hbuilt : Built selector) (hevents : selector.usesEvents = false)
    (hlast : ∀ chains, .union chains ∈ selector.tails → (union chains).usesEvents = false) :
    selector.selects s v e = selector.selects s w e := by
  refine holds_eq_of_tails fun link hlink => ?_
  by_cases hunion : link.IsUnion
  · cases link with
    | atom | refined => exact hunion.elim
    | union chains =>
        exact someHolds_eq_of_usesEvents s v w e (hbuilt.unions hlink) (hlast chains hlink)
  · exact linkHolds_eq_of_headIsEvent s v w e hunion (headIsEvent_of_tails hevents hunion hlink)

/-- What is open, and the broken entity of a name. -/
def openOrBroken : List Selector :=
  [.atom (.tag "open"), .refined (.tag "broken") (.atom (.id "east"))]

theorem selects_eq_of_no_events_openOrBroken :
    let selector := Selector.refined (.tag "door") (.union openOrBroken)
    Built selector ∧ selector.usesEvents = false ∧
    ∀ s v w e, selector.selects s v e = selector.selects s w e := by
  intro selector
  have hread : read "#open, #broken:@east" = .ok (.union openOrBroken) := by decide +kernel
  have hbuilt : Built selector := Built.refinedBy (Built.tag "door") (Built.read hread)
  refine ⟨hbuilt, by decide, fun s v w e => ?_⟩
  refine selects_eq_of_no_events s v w e hbuilt (by decide) fun chains hmem => ?_
  obtain rfl : chains = openOrBroken := by simpa [selector, tails] using hmem
  decide

/-- A door that is open, or into which something has just run. -/
def struckDoor : Selector :=
  .refined (.tag "door") (.union [.atom (.tag "open"), .atom (.event .enter)])

/-- `usesEvents` finds no event in a chain that ends in a union, and yet an event decides. -/
theorem usesEvents_misses_union :
    Built struckDoor ∧ struckDoor.usesEvents = false ∧ litDoorStore.isActive 0 = true ∧
    struckDoor.selects litDoorStore (.withCapacity 1) 0 = false ∧
    struckDoor.selects litDoorStore ((Events.withCapacity 1).insert .enter 0) 0 = true := by
  have hread : read "#open, !enter" =
      .ok (.union [.atom (.tag "open"), .atom (.event .enter)]) := by
    decide +kernel
  exact ⟨Built.refinedBy (Built.tag "door") (Built.read hread), by decide, by decide, by decide,
    by decide⟩

end Events

end Selector
end EntityRules
