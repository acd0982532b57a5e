import EntityRules.Selector.Matching
import EntityRules.Selector.Reader

/-!
# The meaning of selectors

`Meets` says which entities a selector describes, without the evaluator: a chain asks for its
head and for its refinement, a union asks for one of its members.  The evaluator follows this
meaning on flat selectors, those in which no union is a direct member of a union.

**Results.**
* `holds_iff_meets`: the evaluator decides the meaning of a flat selector.
* `selects_iff_meets`: the same for the entities of a store.
* `holds_of_links`: a selector holds when the links of one of its chains do.
* `flat_of_read`, `flat_refinedBy`: reading and refining give flat selectors only.
-/

namespace EntityRules

/-- What an atom says of an entity, when `event` tells which events hold. -/
def Atom.Describes (s : Store) (event : EventKind → Nat → Prop) (e : Nat) : Atom → Prop
  | .id name => s.get? .name e = some name
  | .tag name => ∃ tags, s.get? .tags e = some tags ∧ name ∈ tags.toList
  | .event kind => event kind e

theorem Atom.holds_iff_describes
    (s : Store) (v : Events) (e : Nat) (atom : Atom) :
    atom.holds s v e = true ↔
      atom.Describes s (fun kind i => (v.get kind).contains i = true) e := by
  cases atom with
  | id name =>
      simp [holds, Describes]
  | tag name =>
      cases htags : s.get? .tags e with
      | none =>
          simp [holds, Describes, htags]
      | some tags =>
          simp [holds, Describes, htags, Tags.contains]
  | event kind =>
      simp [holds, Describes]

theorem Atom.describes_congr
    {s : Store} {event other : EventKind → Nat → Prop} {e : Nat}
    (hevent : ∀ kind, event kind e ↔ other kind e)
    (atom : Atom) :
    atom.Describes s event e ↔ atom.Describes s other e := by
  cases atom with
  | id name => exact Iff.rfl
  | tag name => exact Iff.rfl
  | event kind => exact hevent kind

namespace Selector

/-- Whether a selector is a union at its head. -/
def IsUnion : Selector → Prop
  | .union _ => True
  | _ => False

/-- No union is a direct member of a union, at any depth. -/
inductive Flat : Selector → Prop
  | atom (head : Atom) : Flat (.atom head)
  | refined (head : Atom) {next : Selector} :
      Flat next →
      Flat (.refined head next)
  | union {chains : List Selector} :
      (∀ chain, chain ∈ chains → Flat chain) →
      (∀ chain, chain ∈ chains → ¬ chain.IsUnion) →
      Flat (.union chains)

/-- The meaning of a selector, given that of its atoms. -/
inductive Meets (atom : Atom → Prop) : Selector → Prop
  | atom {head : Atom} :
      atom head →
      Meets atom (.atom head)
  | refined {head : Atom} {next : Selector} :
      atom head →
      Meets atom next →
      Meets atom (.refined head next)
  | union {chain : Selector} {chains : List Selector} :
      chain ∈ chains →
      Meets atom chain →
      Meets atom (.union chains)

section Values

variable {p : Atom → Prop}

theorem meets_atom_iff {head : Atom} : Meets p (.atom head) ↔ p head := by
  constructor
  · intro h
    cases h with
    | atom hhead => exact hhead
  · exact Meets.atom

theorem meets_refined_iff {head : Atom} {next : Selector} :
    Meets p (.refined head next) ↔ p head ∧ Meets p next := by
  constructor
  · intro h
    cases h with
    | refined hhead hnext => exact ⟨hhead, hnext⟩
  · exact fun h => Meets.refined h.1 h.2

theorem meets_union_iff {chains : List Selector} :
    Meets p (.union chains) ↔ ∃ chain, chain ∈ chains ∧ Meets p chain := by
  constructor
  · intro h
    cases h with
    | union hmem hchain => exact ⟨_, hmem, hchain⟩
  · rintro ⟨chain, hmem, hchain⟩
    exact Meets.union hmem hchain

theorem Meets.mono {q : Atom → Prop} (hpq : ∀ a, p a → q a) {s : Selector}
    (h : Meets p s) : Meets q s := by
  induction h with
  | atom hhead => exact Meets.atom (hpq _ hhead)
  | refined hhead _ ih => exact Meets.refined (hpq _ hhead) ih
  | union hmem _ ih => exact Meets.union hmem ih

theorem meets_congr {q : Atom → Prop} (hpq : ∀ a, p a ↔ q a) (s : Selector) :
    Meets p s ↔ Meets q s :=
  ⟨Meets.mono fun a => (hpq a).mp, Meets.mono fun a => (hpq a).mpr⟩

/-- A union without unions among its members holds when a member does. -/
theorem someHolds_iff (atom : Atom → Bool) (chains : List Selector)
    (hchains : ∀ chain, chain ∈ chains → ¬ chain.IsUnion) :
    someHolds atom chains = true ↔ ∃ chain, chain ∈ chains ∧ holds atom chain = true := by
  induction chains with
  | nil => simp [someHolds]
  | cons chain rest ih =>
      have hrest := ih fun c hc => hchains c (List.mem_cons_of_mem _ hc)
      have hhead : someHolds atom (chain :: rest) = (holds atom chain || someHolds atom rest) := by
        cases chain with
        | atom head => rfl
        | refined head next => rfl
        | union inner => exact absurd trivial (hchains _ List.mem_cons_self)
      rw [hhead, Bool.or_eq_true, hrest]
      simp only [List.mem_cons, exists_eq_or_imp]

/-- The evaluator decides the meaning of a flat selector. -/
theorem holds_iff_meets (atom : Atom → Bool) {s : Selector} (hflat : s.Flat) :
    holds atom s = true ↔ Meets (fun a => atom a = true) s := by
  induction hflat with
  | atom head =>
      rw [meets_atom_iff, holds]
  | refined head _ ih =>
      rw [meets_refined_iff, holds, Bool.and_eq_true, ih]
  | union _ hunion ih =>
      rw [meets_union_iff, holds, someHolds_iff atom _ hunion]
      constructor
      · rintro ⟨chain, hmem, hchain⟩
        exact ⟨chain, hmem, (ih chain hmem).mp hchain⟩
      · rintro ⟨chain, hmem, hchain⟩
        exact ⟨chain, hmem, (ih chain hmem).mpr hchain⟩

theorem selects_iff_meets
    (s : Store) (v : Events) (e : Nat) {selector : Selector} (hflat : selector.Flat) :
    selector.selects s v e = true ↔
      Meets (Atom.Describes s (fun kind i => (v.get kind).contains i = true) e) selector := by
  rw [selects, holds_iff_meets _ hflat]
  exact meets_congr (Atom.holds_iff_describes s v e) selector

end Values

section Links

/-- Whether a link of a chain holds: its head, or the union that stands in last place. -/
def linkHolds (atom : Atom → Bool) : Selector → Bool
  | .atom head => atom head
  | .refined head _ => atom head
  | .union chains => someHolds atom chains

/-- A link that asks for an event of a kind. -/
def AsksFor (kind : EventKind) : Selector → Prop
  | .atom head => head = .event kind
  | .refined head _ => head = .event kind
  | .union _ => False

/-- A selector holds when all of its tails do, each by its head. -/
theorem holds_iff_tails (atom : Atom → Bool) (s : Selector) :
    holds atom s = true ↔ ∀ link ∈ s.tails, linkHolds atom link = true := by
  match s with
  | .atom head => simp [tails, holds, linkHolds]
  | .union chains => simp [tails, holds, linkHolds]
  | .refined head next =>
      have ih := holds_iff_tails atom next
      simp [tails, holds, linkHolds, ih]

theorem linkHolds_of_asksFor {atom : Atom → Bool} {kind : EventKind} {link : Selector}
    (hatom : atom (.event kind) = true) (hlink : link.AsksFor kind) :
    linkHolds atom link = true := by
  cases link with
  | atom head =>
      obtain rfl : head = .event kind := hlink
      exact hatom
  | refined head next =>
      obtain rfl : head = .event kind := hlink
      exact hatom
  | union chains => exact hlink.elim

/-- One chain that holds is enough, whatever stands before it. -/
theorem someHolds_of_mem {atom : Atom → Bool} {chain : Selector} {chains : List Selector}
    (hmem : chain ∈ chains) (hchain : holds atom chain = true) :
    someHolds atom chains = true := by
  induction chains with
  | nil => simp at hmem
  | cons first rest ih =>
      cases first with
      | union inner => rfl
      | atom | refined =>
          simp only [someHolds, Bool.or_eq_true]
          rcases List.mem_cons.mp hmem with heq | hmem
          · rw [← heq]
            exact Or.inl hchain
          · exact Or.inr (ih hmem)

/-- The links of a selector that is no union are its tails. -/
theorem links_eq_tails {s : Selector} (h : ¬s.IsUnion) : s.links = s.tails := by
  cases s with
  | atom | refined => rfl
  | union chains => exact absurd trivial h

/-- A chain with a link of its own holds when its links do, and with it the whole selector. -/
theorem holds_of_links {atom : Atom → Bool} {s chain link : Selector}
    (hmem : chain ∈ s.chains) (hlink : link ∈ chain.links)
    (hall : ∀ link ∈ chain.links, linkHolds atom link = true) : holds atom s = true := by
  have hunion : ¬chain.IsUnion := by
    intro h
    cases chain with
    | union chains => simp [links] at hlink
    | atom | refined => exact h
  rw [links_eq_tails hunion] at hall
  have hchain := (holds_iff_tails atom chain).mpr hall
  cases s with
  | union chains => exact someHolds_of_mem hmem hchain
  | atom | refined =>
      rw [← List.mem_singleton.mp hmem]
      exact hchain

end Links

section Reading

theorem flat_refinedBy {base next : Selector} (hbase : base.Flat) (hnext : next.Flat) :
    (base.refinedBy next).Flat := by
  cases hbase with
  | atom head => exact Flat.refined head hnext
  | refined head _ => exact Flat.refined head hnext
  | union hchains hunion => exact Flat.union hchains hunion

/-- A flat selector that is no union can be a member of a flat union. -/
def IsMember (s : Selector) : Prop := s.Flat ∧ ¬ s.IsUnion

theorem isMember_closeChain (before : List Atom) (last : Atom) :
    (closeChain before last).IsMember := by
  have key : ∀ chain : Selector, chain.IsMember →
      (before.foldl (fun chain head => .refined head chain) chain).IsMember := by
    induction before with
    | nil => exact fun _ h => h
    | cons head before ih =>
        exact fun chain h => ih _ ⟨Flat.refined head h.1, fun h => h⟩
  exact key _ ⟨Flat.atom last, fun h => h⟩

/-- Closed chains stay members while the rest of the text is read. -/
theorem isMember_of_readChains
    {s : List Char} {current : List Atom} {closed chains : List Selector}
    (hclosed : ∀ chain, chain ∈ closed → chain.IsMember)
    (hread : readChains s current closed = .ok chains) :
    ∀ chain, chain ∈ chains → chain.IsMember := by
  fun_induction readChains s current closed with
  | case1 => simp at hread
  | case2 s current closed head rest hr =>
      obtain rfl := Except.ok.inj hread
      intro chain hmem
      rcases List.mem_cons.mp (List.mem_reverse.mp hmem) with rfl | hmem
      · exact isMember_closeChain current head
      · exact hclosed chain hmem
  | case3 s current closed head rest hr rest' _ _ ih =>
      exact ih hclosed hread
  | case4 s current closed head rest hr rest' _ _ _ ih =>
      refine ih (fun chain hmem => ?_) hread
      rcases List.mem_cons.mp hmem with rfl | hmem
      · exact isMember_closeChain current head
      · exact hclosed chain hmem
  | case5 => simp at hread

theorem flat_ofChains {chains : List Selector}
    (hchains : ∀ chain, chain ∈ chains → chain.IsMember) : (ofChains chains).Flat := by
  unfold ofChains
  split
  · exact (hchains _ List.mem_cons_self).1
  · exact Flat.union (fun c hc => (hchains c hc).1) (fun c hc => (hchains c hc).2)

theorem flat_of_read {text : String} {selector : Selector}
    (hread : read text = .ok selector) : selector.Flat := by
  simp only [read, readChars] at hread
  split at hread
  · next chains hchains =>
      obtain rfl := Except.ok.inj hread
      split at hchains
      · simp at hchains
      · exact flat_ofChains (isMember_of_readChains (by simp) hchains)
  · simp at hread

end Reading

end Selector
end EntityRules
