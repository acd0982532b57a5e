import EntityRules.Proofs.Selector.Grammar

/-!
# Canonical selectors

A selector is canonical when it is a chain of atoms whose names are identifiers, or a union of
two or more such chains.  Selectors are kept as texts in documents, so what is written must be
read again as what it was.

**Results.**
* `canonical_of_read`: the reader gives canonical selectors only.
* `read_text_of_canonical`: the text of a canonical selector is read as that selector.
* `canonical_iff_read`: both together.
-/

namespace EntityRules

/-- The names of an atom are identifiers. -/
def Atom.Named : Atom → Prop
  | .id name => name ≠ "" ∧ ∀ c ∈ name.toList, Selector.isIdentifier c = true
  | .tag name => name ≠ "" ∧ ∀ c ∈ name.toList, Selector.isIdentifier c = true
  | .event _ => True

namespace Selector

variable {a : Atom} {p s : List Char} {selector chain : Selector}

/-- A chain of atoms whose names are identifiers. -/
inductive IsChain : Selector → Prop
  | atom {head : Atom} (hhead : head.Named) : IsChain (.atom head)
  | refined {head : Atom} {next : Selector} (hhead : head.Named) (hnext : IsChain next) :
      IsChain (.refined head next)

/-- A chain, or a union of two or more chains. -/
inductive Canonical : Selector → Prop
  | chain {chain : Selector} (h : IsChain chain) : Canonical chain
  | union {chains : List Selector} (hlength : 2 ≤ chains.length)
      (hchains : ∀ chain ∈ chains, IsChain chain) : Canonical (.union chains)

section Reading

theorem Leaf.named (h : Leaf p a) : a.Named := by
  have hname {name : List Char} (hne : name ≠ []) : String.ofList name ≠ "" := by
    intro heq
    apply hne
    rw [← String.toList_ofList (l := name), heq]
    rfl
  cases h with
  | id hne hchars => exact ⟨hname hne, by rwa [String.toList_ofList]⟩
  | tag hne hchars => exact ⟨hname hne, by rwa [String.toList_ofList]⟩
  | event kind => trivial

theorem Row.isChain {row : List (List Char)} (h : Row row chain) : IsChain chain := by
  induction h with
  | last hleaf => exact IsChain.atom hleaf.named
  | link hleaf _ ih => exact IsChain.refined hleaf.named ih

theorem isChain_of_rows {list : List (List (List Char))} {chains : List Selector}
    (h : List.Forall₂ Row list chains) : ∀ chain ∈ chains, IsChain chain := by
  induction h with
  | nil => exact fun chain hchain => nomatch hchain
  | cons hrow _ ih => exact List.forall_mem_cons.mpr ⟨hrow.isChain, ih⟩

/-- The reader gives canonical selectors only. -/
theorem canonical_of_read {text : String} (h : read text = .ok selector) :
    Canonical selector := by
  obtain ⟨chains, hdenotes, heq⟩ := (read_iff_denotes text selector).mp h
  have hchains := isChain_of_rows hdenotes
  rcases (eq_ofChains_iff hdenotes.ne_nil).mp heq with rfl | ⟨hlength, rfl⟩
  · exact Canonical.chain (hchains selector List.mem_cons_self)
  · exact Canonical.union hlength hchains

end Reading

section Writing

/-- An atom whose names are identifiers is written as a piece of a text. -/
theorem leaf_text (h : a.Named) : Leaf a.text.toList a := by
  have hne {name : String} (hname : name ≠ "") : name.toList ≠ [] := by
    simpa using hname
  cases a with
  | id name =>
      have hleaf := Leaf.id (hne h.1) h.2
      rw [String.ofList_toList] at hleaf
      simpa [Atom.text] using hleaf
  | tag name =>
      have hleaf := Leaf.tag (hne h.1) h.2
      rw [String.ofList_toList] at hleaf
      simpa [Atom.text] using hleaf
  | event kind => simpa [Atom.text] using Leaf.event kind

theorem text_eq_chainText (h : IsChain chain) : chain.text = chainText chain := by
  cases h <;> rfl

/-- A chain is read in front of what an atom is read in front of. -/
theorem IsChain.denotes_append (h : IsChain chain) {t : List Char} {rest : List Selector}
    (ht : ∀ f a, Leaf f a → Denotes (f ++ t) (.atom a :: rest)) :
    Denotes (chain.text.toList ++ t) (chain :: rest) := by
  rw [text_eq_chainText h]
  induction h with
  | atom hhead => exact ht _ _ (leaf_text hhead)
  | @refined head next hhead hnext ih =>
      have hleaf := leaf_text hhead
      have htext : (chainText (.refined head next)).toList ++ t =
          head.text.toList ++ ':' :: ((chainText next).toList ++ t) := by
        simp [chainText]
      rw [htext, denotes_colon_iff hleaf.not_isSeparator (hleaf.trim_eq.symm ▸ hleaf)]
      exact ⟨next :: rest, ih, rfl⟩

/-- A chain alone is read as that chain. -/
theorem IsChain.denotes_text (h : IsChain chain) : Denotes chain.text.toList [chain] := by
  have halone : Denotes (chain.text.toList ++ []) [chain] :=
    h.denotes_append fun f a hleaf => by
      rw [List.append_nil, denotes_single_iff hleaf.not_isSeparator (hleaf.trim_eq.symm ▸ hleaf)]
  rwa [List.append_nil] at halone

/-- A chain before a `,` is read as a chain before those of the rest. -/
theorem IsChain.denotes_comma (h : IsChain chain) {chains : List Selector}
    (hrest : Denotes s chains) :
    Denotes (chain.text.toList ++ ',' :: ' ' :: s) (chain :: chains) := by
  have hblank : Denotes (' ' :: s) chains := by
    have hrows : rows ([' '] ++ s) = rows s :=
      rows_append_blanks (fun c hc => by obtain rfl := List.mem_singleton.mp hc; rfl) s
    rw [Denotes, ← List.singleton_append, hrows]
    exact hrest
  refine h.denotes_append fun f a hleaf => ?_
  rw [denotes_comma_iff hleaf.not_isSeparator (hleaf.trim_eq.symm ▸ hleaf)]
  exact ⟨chains, hblank, rfl⟩

/-- The text of a union is read as its members. -/
theorem denotes_text_union {chains : List Selector} (hne : chains ≠ [])
    (hchains : ∀ chain ∈ chains, IsChain chain) :
    Denotes (Selector.union chains).text.toList chains := by
  have htexts (chains : List Selector) : texts chains = chains.map text := by
    induction chains with
    | nil => rfl
    | cons chain chains ih => rw [texts, ih, List.map_cons]
  rw [text, htexts, String.toList_intercalate, List.map_map]
  -- the last chain stands alone, any other before a `,`
  induction chains with
  | nil => exact absurd rfl hne
  | cons chain chains ih =>
      obtain ⟨hchain, hrest⟩ := List.forall_mem_cons.mp hchains
      cases chains with
      | nil => simpa using hchain.denotes_text
      | cons next chains =>
          have htail := ih (List.cons_ne_nil _ _) hrest
          rw [List.map_cons, List.map_cons, List.intercalate_cons_cons]
          simpa using hchain.denotes_comma htail

/-- The text of a canonical selector is read as that selector. -/
theorem read_text_of_canonical (h : Canonical selector) : read selector.text = .ok selector := by
  rw [read_iff_denotes]
  cases h with
  | chain hchain => exact ⟨[selector], hchain.denotes_text, rfl⟩
  | @union chains hlength hchains =>
      have hne : chains ≠ [] := by
        rintro rfl
        nomatch hlength
      exact ⟨chains, denotes_text_union hne hchains,
        (eq_ofChains_iff hne).mpr (Or.inr ⟨hlength, rfl⟩)⟩

/-- **Reading what was written.**  The canonical selectors are those that some text is read as,
and each of them is what its own text is read as. -/
theorem canonical_iff_read (selector : Selector) :
    (Canonical selector ↔ ∃ text, read text = .ok selector) ∧
    (Canonical selector ↔ read selector.text = .ok selector) := by
  refine ⟨⟨fun h => ⟨selector.text, read_text_of_canonical h⟩, ?_⟩,
    read_text_of_canonical, canonical_of_read⟩
  rintro ⟨text, hread⟩
  exact canonical_of_read hread

end Writing

end Selector
end EntityRules
