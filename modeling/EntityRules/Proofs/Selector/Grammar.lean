import EntityRules.Proofs.Text.Trim
import EntityRules.Selector.Reader
import Mathlib.Data.List.Forall2

/-!
# The grammar of selectors

The grammar of selectors is global: a text is split at every `,` into parts, each part at every
`:` into pieces, and every piece without the blanks around it must be an atom.  The reader goes
through the text once and never splits it.

**Results.**
* `leaf_of_readAtom`, `readAtom_of_leaf`: the reader of atoms against a single piece.
* `rows_append_colon`, `rows_append_comma`: what the splitting makes of a first piece.
* `readChains_iff`: the reader of chains against the pieces of the rest of the text.
* `read_iff_rows`: the reader accepts the texts of the grammar, with the selector they denote.
-/

namespace EntityRules
namespace Selector

open Text (isBlank trim trimStart AllBlank StartsFilled)

variable {c : Char} {a : Atom} {p s t : List Char}

/-! ## Pieces -/

/-- The texts of atoms: a sign and an identifier. -/
inductive Leaf : List Char → Atom → Prop
  | id {name : List Char} (hne : name ≠ []) (hname : ∀ c ∈ name, isIdentifier c = true) :
      Leaf ('@' :: name) (.id (String.ofList name))
  | tag {name : List Char} (hne : name ≠ []) (hname : ∀ c ∈ name, isIdentifier c = true) :
      Leaf ('#' :: name) (.tag (String.ofList name))
  | event (kind : EventKind) : Leaf ('!' :: kind.name.toList) (.event kind)

/-- The pieces of a text, part by part. -/
def rows (s : List Char) : List (List (List Char)) :=
  (s.splitOn ',').map fun part => (part.splitOn ':').map trim

/-- The chain of a row of pieces: each piece refined by those after it. -/
inductive Row : List (List Char) → Selector → Prop
  | last {p : List Char} {a : Atom} (h : Leaf p a) : Row [p] (.atom a)
  | link {p : List Char} {a : Atom} {row : List (List Char)} {chain : Selector}
      (h : Leaf p a) (hrow : Row row chain) : Row (p :: row) (.refined a chain)

section Characters

/-- No blank can stand in an identifier. -/
theorem not_isBlank_of_isIdentifier (h : isIdentifier c = true) : isBlank c = false := by
  have hpoints : ∀ n ∈ Text.blankPoints, isIdentifier (Char.ofNat n) = false := by decide +kernel
  rw [Bool.eq_false_iff]
  intro hblank
  have hnot := hpoints _ (Text.toNat_mem_blankPoints hblank)
  rw [Char.ofNat_toNat, h] at hnot
  exact Bool.noConfusion hnot

/-- Whether a character stands between two pieces. -/
def IsSeparator (c : Char) : Prop := c = ':' ∨ c = ','

theorem IsSeparator.not_isBlank (h : IsSeparator c) : isBlank c = false := by
  rcases h with rfl | rfl <;> rfl

theorem IsSeparator.not_isIdentifier (h : IsSeparator c) : isIdentifier c = false := by
  rcases h with rfl | rfl <;> decide

end Characters

section Atoms

theorem Leaf.unique {b : Atom} (h : Leaf p a) (h' : Leaf p b) : a = b := by
  cases h with
  | id hne hname => cases h' with
    | id => rfl
  | tag hne hname => cases h' with
    | tag => rfl
  | event kind =>
      generalize htext : '!' :: kind.name.toList = q at h'
      cases h' with
      | id => nomatch htext
      | tag => nomatch htext
      | event kind' =>
          cases kind <;> cases kind' <;> first | rfl | exact absurd htext (by decide)

theorem isIdentifier_of_mem_name (kind : EventKind) :
    ∀ c ∈ kind.name.toList, isIdentifier c = true := by
  have hletters : ∀ c ∈ kind.name.toList, c.isAlphanum = true := by
    cases kind <;> simp [EventKind.name]
  intro c hc
  rw [isIdentifier, Text.isAlphanumeric_of_isAlphanum (hletters c hc), Bool.true_or,
    Bool.true_or]

theorem name_toList_ne_nil (kind : EventKind) : kind.name.toList ≠ [] := by
  cases kind <;> decide

/-- The text of an atom is a sign and an identifier. -/
theorem Leaf.exists_sign (h : Leaf p a) :
    ∃ sign name, p = sign :: name ∧ (sign = '@' ∨ sign = '#' ∨ sign = '!') ∧ name ≠ [] ∧
      ∀ c ∈ name, isIdentifier c = true := by
  cases h with
  | id hne hname => exact ⟨_, _, rfl, Or.inl rfl, hne, hname⟩
  | tag hne hname => exact ⟨_, _, rfl, Or.inr (Or.inl rfl), hne, hname⟩
  | event kind =>
      exact ⟨_, _, rfl, Or.inr (Or.inr rfl), name_toList_ne_nil kind, isIdentifier_of_mem_name kind⟩

/-- No character of an atom is a blank. -/
theorem Leaf.not_isBlank (h : Leaf p a) : ∀ c ∈ p, isBlank c = false := by
  obtain ⟨sign, name, rfl, hsign, _, hname⟩ := h.exists_sign
  intro c hc
  rcases List.mem_cons.mp hc with rfl | hc
  · rcases hsign with rfl | rfl | rfl <;> rfl
  · exact not_isBlank_of_isIdentifier (hname c hc)

theorem Leaf.trim_eq (h : Leaf p a) : trim p = p := by
  have hself := Text.trim_append h.not_isBlank (t := []) (fun c hc => nomatch hc)
  rwa [List.append_nil] at hself

/-- No character of an atom stands between pieces. -/
theorem Leaf.not_isSeparator (h : Leaf p a) : ∀ c ∈ p, ¬IsSeparator c := by
  obtain ⟨sign, name, rfl, hsign, _, hname⟩ := h.exists_sign
  intro c hc hseparator
  rcases List.mem_cons.mp hc with rfl | hc
  · rcases hsign with rfl | rfl | rfl <;> rcases hseparator with h | h <;> nomatch h
  · have hout := hseparator.not_isIdentifier
    rw [hname c hc] at hout
    exact Bool.noConfusion hout

theorem ofName?_name (kind : EventKind) : EventKind.ofName? kind.name = some kind := by
  cases kind <;> decide

theorem eq_name_of_ofName? {text : String} {kind : EventKind}
    (h : EventKind.ofName? text = some kind) : text = kind.name := by
  have hfound := List.find?_some h
  exact (of_decide_eq_true hfound).symm

/-- An identifier ends before the first character that cannot stand in one. -/
theorem identifier_append {name t : List Char} (sign : Char) (hne : name ≠ [])
    (hname : ∀ c ∈ name, isIdentifier c = true) (ht : ∀ c ∈ t.head?, isIdentifier c = false) :
    identifier sign (name ++ t) = .ok (String.ofList name, t) := by
  have htake : t.takeWhile isIdentifier = [] := by
    cases t with
    | nil => rfl
    | cons c t => exact List.takeWhile_cons_of_neg (by simp [ht c rfl])
  have hdrop : t.dropWhile isIdentifier = t := by
    cases t with
    | nil => rfl
    | cons c t => exact List.dropWhile_cons_of_neg (by simp [ht c rfl])
  rw [identifier, List.takeWhile_append_of_pos hname, List.dropWhile_append_of_pos hname, htake,
    hdrop, List.append_nil]
  simp [hne]

/-- The reader of atoms finds an atom that ends where no identifier goes on. -/
theorem readAtom_of_leaf {t : List Char} (h : Leaf p a)
    (ht : ∀ c ∈ t.head?, isIdentifier c = false) : readAtom (p ++ t) = .ok (a, t) := by
  cases h with
  | id hne hname =>
      simp [readAtom, identifier_append '@' hne hname ht, Except.map]
  | tag hne hname =>
      simp [readAtom, identifier_append '#' hne hname ht, Except.map]
  | event kind =>
      simp [readAtom, ofName?_name,
        identifier_append '!' (name_toList_ne_nil kind) (isIdentifier_of_mem_name kind) ht]

theorem exists_name_of_identifier {sign : Char} {name : String} {rest : List Char}
    (h : identifier sign s = .ok (name, rest)) :
    s = name.toList ++ rest ∧ name.toList ≠ [] ∧ ∀ c ∈ name.toList, isIdentifier c = true := by
  simp only [identifier] at h
  split at h
  · cases h
  · next hne =>
      obtain ⟨rfl, rfl⟩ := Prod.mk.inj (Except.ok.inj h)
      rw [String.toList_ofList]
      exact ⟨List.takeWhile_append_dropWhile.symm, by simpa using hne,
        fun _ => List.mem_takeWhile_imp⟩

/-- What the reader of atoms takes is the text of the atom. -/
theorem leaf_of_readAtom {rest : List Char} (h : readAtom s = .ok (a, rest)) :
    ∃ p, s = p ++ rest ∧ Leaf p a := by
  cases s with
  | nil => nomatch h
  | cons c s =>
      cases hidentifier : identifier c s with
      | error stop =>
          simp only [readAtom, hidentifier, Except.map] at h
          split_ifs at h
      | ok found =>
          obtain ⟨name, rest'⟩ := found
          obtain ⟨rfl, hne, hname⟩ := exists_name_of_identifier hidentifier
          simp only [readAtom, hidentifier, Except.map] at h
          split_ifs at h with hid htag hevent
          · obtain ⟨rfl, rfl⟩ := Prod.mk.inj (Except.ok.inj h)
            have hleaf := Leaf.id hne hname
            rw [String.ofList_toList] at hleaf
            exact ⟨_, hid ▸ rfl, hleaf⟩
          · obtain ⟨rfl, rfl⟩ := Prod.mk.inj (Except.ok.inj h)
            have hleaf := Leaf.tag hne hname
            rw [String.ofList_toList] at hleaf
            exact ⟨_, htag ▸ rfl, hleaf⟩
          · split at h
            · next kind hkind =>
                obtain ⟨rfl, rfl⟩ := Prod.mk.inj (Except.ok.inj h)
                obtain rfl := eq_name_of_ofName? hkind
                exact ⟨_, hevent ▸ rfl, Leaf.event kind⟩
            · cases h

end Atoms

section Splitting

/-- Characters that are no separator stay in front of the first part. -/
theorem splitOn_append {x : Char} {f : List Char} (hf : x ∉ f) (s : List Char) :
    (f ++ s).splitOn x = (s.splitOn x).modifyHead (f ++ ·) := by
  induction f with
  | nil =>
      cases hs : s.splitOn x with
      | nil => exact absurd hs (List.splitOn_ne_nil x s)
      | cons part parts => rw [List.nil_append, hs, List.modifyHead_cons, List.nil_append]
  | cons c f ih =>
      obtain ⟨hc, hf'⟩ : x ≠ c ∧ x ∉ f := by simpa using hf
      rw [List.cons_append, List.splitOn_cons_eq_if_modifyHead, if_neg (by simpa using hc.symm),
        ih hf', List.modifyHead_modifyHead]
      rfl

theorem rows_ne_nil (s : List Char) : rows s ≠ [] := by
  simp [rows]

/-- A text without separators is a single piece. -/
theorem rows_single {f : List Char} (hf : ∀ c ∈ f, ¬IsSeparator c) : rows f = [[trim f]] := by
  have hcomma : ',' ∉ f := fun hmem => hf _ hmem (Or.inr rfl)
  have hcolon : ':' ∉ f := fun hmem => hf _ hmem (Or.inl rfl)
  rw [rows, List.splitOn_eq_singleton hcomma, List.map_singleton,
    List.splitOn_eq_singleton hcolon, List.map_singleton]

/-- A piece before a `,` is a part. -/
theorem rows_append_comma {f : List Char} (hf : ∀ c ∈ f, ¬IsSeparator c) (s : List Char) :
    rows (f ++ ',' :: s) = [trim f] :: rows s := by
  have hcomma : ',' ∉ f := fun hmem => hf _ hmem (Or.inr rfl)
  have hcolon : ':' ∉ f := fun hmem => hf _ hmem (Or.inl rfl)
  rw [rows, List.splitOn_append_cons_self_of_not_mem hcomma, List.map_cons,
    List.splitOn_eq_singleton hcolon, List.map_singleton, rows]

/-- A piece before a `:` joins the first part of the rest. -/
theorem rows_append_colon {f : List Char} (hf : ∀ c ∈ f, ¬IsSeparator c) (s : List Char) :
    rows (f ++ ':' :: s) = (rows s).modifyHead (trim f :: ·) := by
  have hcomma : ',' ∉ f ++ [':'] := by
    simpa using fun hmem => hf _ hmem (Or.inr rfl)
  have hcolon : ':' ∉ f := fun hmem => hf _ hmem (Or.inl rfl)
  have hparts : (f ++ ':' :: s).splitOn ',' =
      (s.splitOn ',').modifyHead (f ++ ':' :: ·) := by
    have happend := splitOn_append hcomma s
    rw [List.append_assoc] at happend
    simpa [List.append_assoc] using happend
  rw [rows, hparts, rows]
  cases hs : s.splitOn ',' with
  | nil => exact absurd hs (List.splitOn_ne_nil ',' s)
  | cons part parts =>
      simp only [List.modifyHead_cons, List.map_cons]
      rw [List.splitOn_append_cons_self_of_not_mem hcolon, List.map_cons]

/-- Blanks before a text do not show in its pieces. -/
theorem rows_append_blanks {b : List Char} (hb : AllBlank b) (s : List Char) :
    rows (b ++ s) = rows s := by
  induction b with
  | nil => rfl
  | cons c b ih =>
      have hc : isBlank c = true := hb c List.mem_cons_self
      have hcomma : c ≠ ',' := by
        rintro rfl
        nomatch hc
      have hcolon : c ≠ ':' := by
        rintro rfl
        nomatch hc
      rw [← ih fun d hd => hb d (List.mem_cons_of_mem _ hd), List.cons_append, rows, rows,
        List.splitOn_cons_eq_if_modifyHead, if_neg (by simpa using hcomma)]
      cases hs : (b ++ s).splitOn ',' with
      | nil => rfl
      | cons part parts =>
          simp only [List.modifyHead_cons, List.map_cons]
          rw [List.splitOn_cons_eq_if_modifyHead, if_neg (by simpa using hcolon)]
          cases part.splitOn ':' with
          | nil => rfl
          | cons piece pieces => simp [Text.trim_cons hc]

theorem rows_trimStart (s : List Char) : rows (trimStart s) = rows s := by
  obtain ⟨b, hb, heq⟩ := Text.exists_blanks_trimStart s
  calc rows (trimStart s) = rows (b ++ trimStart s) := (rows_append_blanks hb _).symm
    _ = rows s := by rw [← heq]

/-- A text is its first piece and nothing, or a separator and the rest. -/
theorem exists_piece (s : List Char) :
    ∃ f t, s = f ++ t ∧ (∀ c ∈ f, ¬IsSeparator c) ∧ ∀ c ∈ t.head?, IsSeparator c := by
  induction s with
  | nil => exact ⟨[], [], rfl, by simp, by simp⟩
  | cons c s ih =>
      by_cases hc : IsSeparator c
      · exact ⟨[], c :: s, rfl, by simp, by simpa using hc⟩
      · obtain ⟨f, t, rfl, hf, ht⟩ := ih
        exact ⟨c :: f, t, rfl, by simpa using ⟨hc, hf⟩, ht⟩

/-- The first piece of a text comes first in its first row. -/
theorem exists_rows {f t : List Char} (hf : ∀ c ∈ f, ¬IsSeparator c)
    (ht : ∀ c ∈ t.head?, IsSeparator c) :
    ∃ row rest, rows (f ++ t) = (trim f :: row) :: rest := by
  cases t with
  | nil => exact ⟨[], [], by rw [List.append_nil, rows_single hf]⟩
  | cons c t =>
      rcases ht c rfl with rfl | rfl
      · rw [rows_append_colon hf]
        cases hrows : rows t with
        | nil => exact absurd hrows (rows_ne_nil t)
        | cons row rest => exact ⟨row, rest, rfl⟩
      · exact ⟨[], rows t, rows_append_comma hf t⟩

end Splitting

section Chains

/-- The chains that the rows of a text denote. -/
def Denotes (s : List Char) (chains : List Selector) : Prop :=
  List.Forall₂ Row (rows s) chains

/-- The open chain of a reader around what it goes on with. -/
def wrap (current : List Atom) (chain : Selector) : Selector :=
  current.foldl (fun chain head => .refined head chain) chain

theorem modifyHead_wrap_nil (chains : List Selector) : chains.modifyHead (wrap []) = chains :=
  congrFun List.modifyHead_id chains

/-- Blanks before a text do not bear on what it denotes. -/
theorem denotes_trimStart_iff {chains : List Selector} :
    Denotes (trimStart s) chains ↔ Denotes s chains := by
  rw [Denotes, rows_trimStart, Denotes]

/-- When the pieces of a text denote chains, an atom can be read from it, up to the blanks before
the first separator. -/
theorem Denotes.exists_readAtom {chains : List Selector} (h : Denotes s chains)
    (hs : StartsFilled s) :
    ∃ a rest, readAtom s = .ok (a, rest) ∧ ∀ c ∈ (trimStart rest).head?, IsSeparator c := by
  obtain ⟨f, t, rfl, hf, ht⟩ := exists_piece s
  obtain ⟨row, rest, hrows⟩ := exists_rows hf ht
  have hleaf : ∃ a, Leaf (trim f) a := by
    rw [Denotes, hrows] at h
    cases h with
    | cons hrow _ =>
        cases hrow with
        | last hleaf => exact ⟨_, hleaf⟩
        | link hleaf _ => exact ⟨_, hleaf⟩
  obtain ⟨a, hleaf⟩ := hleaf
  have hfilled : StartsFilled f := by
    cases f with
    | nil => exact fun c hc => nomatch hc
    | cons c f => exact fun d hd => hs d hd
  obtain ⟨b, hb, hblanks⟩ := Text.exists_blanks hfilled
  -- after the atom come the blanks, then the separator
  have hend : ∀ c ∈ (b ++ t).head?, isIdentifier c = false := by
    cases b with
    | nil => exact fun c hc => (ht c hc).not_isIdentifier
    | cons d b =>
        intro c hc
        obtain rfl := Option.some.inj hc
        rw [Bool.eq_false_iff]
        intro hidentifier
        have hblank := hb d List.mem_cons_self
        rw [not_isBlank_of_isIdentifier hidentifier] at hblank
        exact Bool.noConfusion hblank
  have hstart : trimStart (b ++ t) = t :=
    Text.trimStart_append hb fun c hc => (ht c hc).not_isBlank
  refine ⟨a, b ++ t, ?_, by rwa [hstart]⟩
  have hread := readAtom_of_leaf hleaf hend
  rw [hblanks, List.append_assoc]
  exact readAtom_of_leaf hleaf hend

/-- Blanks after an atom leave it the only piece. -/
theorem Leaf.append_blanks {b : List Char} (h : Leaf p a) (hb : AllBlank b) :
    (∀ c ∈ p ++ b, ¬IsSeparator c) ∧ Leaf (trim (p ++ b)) a := by
  refine ⟨fun c hc hseparator => ?_, ?_⟩
  · rcases List.mem_append.mp hc with hc | hc
    · exact h.not_isSeparator c hc hseparator
    · have hblank := hb c hc
      rw [hseparator.not_isBlank] at hblank
      exact Bool.noConfusion hblank
  · rwa [Text.trim_append h.not_isBlank hb]

/-- The part of a text before its first separator, when an atom has been read. -/
theorem exists_leaf_blanks {rest : List Char} (h : readAtom s = .ok (a, rest)) :
    ∃ f, s = f ++ trimStart rest ∧ (∀ c ∈ f, ¬IsSeparator c) ∧ Leaf (trim f) a := by
  obtain ⟨p, rfl, hleaf⟩ := leaf_of_readAtom h
  obtain ⟨b, hb, heq⟩ := Text.exists_blanks_trimStart rest
  refine ⟨p ++ b, ?_, hleaf.append_blanks hb⟩
  rw [List.append_assoc, ← heq]

theorem row_single_iff {chain : Selector} (h : Leaf p a) : Row [p] chain ↔ chain = .atom a := by
  constructor
  · intro hrow
    cases hrow with
    | last h' => rw [h'.unique h]
    | link _ hrow => nomatch hrow
  · rintro rfl
    exact Row.last h

theorem row_cons_iff {row : List (List Char)} {chain : Selector} (h : Leaf p a)
    (hne : row ≠ []) : Row (p :: row) chain ↔ ∃ next, Row row next ∧ chain = .refined a next := by
  constructor
  · intro hrow
    cases hrow with
    | last _ => exact absurd rfl hne
    | link h' hrow => exact ⟨_, hrow, by rw [h'.unique h]⟩
  · rintro ⟨next, hrow, rfl⟩
    exact Row.link h hrow

theorem denotes_single_iff {f : List Char} {chains : List Selector}
    (hf : ∀ c ∈ f, ¬IsSeparator c) (h : Leaf (trim f) a) :
    Denotes f chains ↔ chains = [.atom a] := by
  rw [Denotes, rows_single hf, List.forall₂_cons_left_iff]
  simp only [row_single_iff h, List.forall₂_nil_left_iff]
  constructor
  · rintro ⟨_, _, rfl, rfl, rfl⟩
    rfl
  · rintro rfl
    exact ⟨_, _, rfl, rfl, rfl⟩

theorem denotes_comma_iff {f : List Char} {chains : List Selector}
    (hf : ∀ c ∈ f, ¬IsSeparator c) (h : Leaf (trim f) a) (s : List Char) :
    Denotes (f ++ ',' :: s) chains ↔ ∃ rest, Denotes s rest ∧ chains = .atom a :: rest := by
  rw [Denotes, rows_append_comma hf, List.forall₂_cons_left_iff]
  simp only [row_single_iff h]
  constructor
  · rintro ⟨_, rest, rfl, hrest, rfl⟩
    exact ⟨rest, hrest, rfl⟩
  · rintro ⟨rest, hrest, rfl⟩
    exact ⟨_, rest, rfl, hrest, rfl⟩

theorem denotes_colon_iff {f : List Char} {chains : List Selector}
    (hf : ∀ c ∈ f, ¬IsSeparator c) (h : Leaf (trim f) a) (s : List Char) :
    Denotes (f ++ ':' :: s) chains ↔
      ∃ rest, Denotes s rest ∧ chains = rest.modifyHead (.refined a) := by
  obtain ⟨g, t, rfl, hg, ht⟩ := exists_piece s
  obtain ⟨row, rows', hrows⟩ := exists_rows hg ht
  rw [Denotes, rows_append_colon hf, hrows, List.modifyHead_cons, List.forall₂_cons_left_iff]
  simp only [row_cons_iff h (List.cons_ne_nil _ _), Denotes, hrows]
  constructor
  · rintro ⟨_, rest, ⟨next, hnext, rfl⟩, hrest, rfl⟩
    exact ⟨next :: rest, List.Forall₂.cons hnext hrest, rfl⟩
  · rintro ⟨rest, hrest, rfl⟩
    cases hrest with
    | cons hnext hrest => exact ⟨_, _, ⟨_, hnext, rfl⟩, hrest, rfl⟩

/-- The reader of chains against the pieces: the open chain goes around the first chain of the
rest, and the closed chains come before it. -/
theorem readChains_iff {current : List Atom} {closed chains : List Selector}
    (hs : StartsFilled s) :
    readChains s current closed = .ok chains ↔
      ∃ rest, Denotes s rest ∧ chains = closed.reverse ++ rest.modifyHead (wrap current) := by
  fun_induction readChains s current closed with
  | case1 s current closed stop hread =>
      refine ⟨fun hok => (nomatch hok), ?_⟩
      rintro ⟨rest, hrest, _⟩
      obtain ⟨_, _, hok, _⟩ := hrest.exists_readAtom hs
      rw [hread] at hok
      nomatch hok
  | case2 s current closed head rest hread htrim =>
      obtain ⟨f, heq, hf, hleaf⟩ := exists_leaf_blanks hread
      rw [htrim, List.append_nil] at heq
      subst heq
      simp only [denotes_single_iff hf hleaf, Except.ok.injEq, List.reverse_cons]
      constructor
      · rintro rfl
        exact ⟨_, rfl, rfl⟩
      · rintro ⟨_, rfl, rfl⟩
        rfl
  | case3 s current closed head rest hread rest' htrim _ ih =>
      obtain ⟨f, heq, hf, hleaf⟩ := exists_leaf_blanks hread
      rw [htrim] at heq
      subst heq
      rw [ih (Text.startsFilled_trimStart rest')]
      simp only [denotes_colon_iff hf hleaf, denotes_trimStart_iff]
      constructor
      · rintro ⟨next, hnext, rfl⟩
        exact ⟨_, ⟨next, hnext, rfl⟩, by rw [List.modifyHead_modifyHead]; rfl⟩
      · rintro ⟨_, ⟨next, hnext, rfl⟩, rfl⟩
        exact ⟨next, hnext, by rw [List.modifyHead_modifyHead]; rfl⟩
  | case4 s current closed head rest hread rest' htrim _ _ ih =>
      obtain ⟨f, heq, hf, hleaf⟩ := exists_leaf_blanks hread
      rw [htrim] at heq
      subst heq
      rw [ih (Text.startsFilled_trimStart rest')]
      simp only [denotes_comma_iff hf hleaf, denotes_trimStart_iff, modifyHead_wrap_nil,
        List.reverse_cons, List.append_assoc, List.singleton_append]
      constructor
      · rintro ⟨next, hnext, rfl⟩
        exact ⟨_, ⟨next, hnext, rfl⟩, rfl⟩
      · rintro ⟨_, ⟨next, hnext, rfl⟩, rfl⟩
        exact ⟨next, hnext, rfl⟩
  | case5 s current closed head rest hread c rest' htrim _ hcolon hcomma =>
      refine ⟨fun hok => (nomatch hok), ?_⟩
      rintro ⟨next, hnext, _⟩
      -- after an atom of the grammar only a separator goes on
      obtain ⟨_, _, hok, hseparator⟩ := hnext.exists_readAtom hs
      obtain ⟨rfl, rfl⟩ := Prod.mk.inj (Except.ok.inj (hread.symm.trans hok))
      rw [htrim] at hseparator
      rcases hseparator c rfl with h | h
      · exact absurd h hcolon
      · exact absurd h hcomma

end Chains

section Reading

/-- The texts that can stand between separators. -/
def IsPiece (p : List Char) : Prop :=
  (∃ sign name, p = sign :: name ∧ (sign = '@' ∨ sign = '#') ∧ name ≠ [] ∧
    ∀ c ∈ name, isIdentifier c = true) ∨
  p = "!enter".toList ∨ p = "!exit".toList

theorem isPiece_iff : IsPiece p ↔ ∃ a, Leaf p a := by
  constructor
  · rintro (⟨sign, name, rfl, rfl | rfl, hne, hname⟩ | rfl | rfl)
    · exact ⟨_, Leaf.id hne hname⟩
    · exact ⟨_, Leaf.tag hne hname⟩
    · exact ⟨_, Leaf.event .enter⟩
    · exact ⟨_, Leaf.event .exit⟩
  · rintro ⟨a, h⟩
    cases h with
    | id hne hname => exact Or.inl ⟨_, _, rfl, Or.inl rfl, hne, hname⟩
    | tag hne hname => exact Or.inl ⟨_, _, rfl, Or.inr rfl, hne, hname⟩
    | event kind =>
        cases kind with
        | enter => exact Or.inr (Or.inl (by decide))
        | exit => exact Or.inr (Or.inr (by decide))

theorem exists_row_iff {row : List (List Char)} (hne : row ≠ []) :
    (∃ chain, Row row chain) ↔ ∀ p ∈ row, IsPiece p := by
  induction row with
  | nil => exact absurd rfl hne
  | cons p row ih =>
      rw [List.forall_mem_cons, isPiece_iff]
      constructor
      · rintro ⟨chain, hrow⟩
        cases hrow with
        | last hleaf => exact ⟨⟨_, hleaf⟩, fun q hq => nomatch hq⟩
        | link hleaf hrow =>
            refine ⟨⟨_, hleaf⟩, (ih ?_).mp ⟨_, hrow⟩⟩
            rintro rfl
            nomatch hrow
      · rintro ⟨⟨a, hleaf⟩, hpieces⟩
        cases row with
        | nil => exact ⟨_, Row.last hleaf⟩
        | cons q row =>
            obtain ⟨chain, hrow⟩ := (ih (List.cons_ne_nil q row)).mpr hpieces
            exact ⟨_, Row.link hleaf hrow⟩

theorem exists_rows_iff {list : List (List (List Char))} (hne : ∀ row ∈ list, row ≠ []) :
    (∃ chains, List.Forall₂ Row list chains) ↔ ∀ row ∈ list, ∀ p ∈ row, IsPiece p := by
  induction list with
  | nil => simp
  | cons row list ih =>
      obtain ⟨hrow, hlist⟩ := List.forall_mem_cons.mp hne
      have hchains := ih hlist
      rw [List.forall_mem_cons, ← exists_row_iff hrow, ← hchains]
      simp only [List.forall₂_cons_left_iff]
      constructor
      · rintro ⟨_, chain, chains, hchain, hchains, rfl⟩
        exact ⟨⟨chain, hchain⟩, chains, hchains⟩
      · rintro ⟨⟨chain, hchain⟩, chains, hchains⟩
        exact ⟨_, chain, chains, hchain, hchains, rfl⟩

theorem exists_denotes_iff (s : List Char) :
    (∃ chains, Denotes s chains) ↔ ∀ row ∈ rows s, ∀ p ∈ row, IsPiece p := by
  refine exists_rows_iff fun row hrow => ?_
  obtain ⟨part, _, rfl⟩ := List.mem_map.mp hrow
  simp

theorem Denotes.ne_nil {chains : List Selector} (h : Denotes s chains) : chains ≠ [] := by
  rintro rfl
  exact rows_ne_nil s (List.forall₂_nil_right_iff.mp h)

/-- The reader gives the chains that the text denotes. -/
theorem read_iff_denotes (text : String) (selector : Selector) :
    read text = .ok selector ↔
      ∃ chains, Denotes text.toList chains ∧ selector = ofChains chains := by
  have hread (chains : List Selector) :
      readChains (trimStart text.toList) [] [] = .ok chains ↔ Denotes text.toList chains := by
    rw [readChains_iff (Text.startsFilled_trimStart _)]
    simp [modifyHead_wrap_nil, denotes_trimStart_iff]
  have hresult : read text = .ok selector ↔
      ∃ chains, readChains (trimStart text.toList) [] [] = .ok chains ∧
        selector = ofChains chains := by
    simp only [read, readChars]
    cases hstart : trimStart text.toList with
    | nil => simp [readChains, readAtom]
    | cons c s =>
        cases hchains : readChains (c :: s) [] [] with
        | ok chains => simp [eq_comm]
        | error stop => simp
  rw [hresult]
  simp only [hread]

theorem eq_ofChains_iff {chains : List Selector} {selector : Selector} (hne : chains ≠ []) :
    selector = ofChains chains ↔
      chains = [selector] ∨ 2 ≤ chains.length ∧ selector = .union chains := by
  match chains with
  | [] => exact absurd rfl hne
  | [chain] => simp [ofChains, eq_comm]
  | _ :: _ :: _ => simp [ofChains]

/-- **The grammar of selectors.**  A text is read exactly when all its pieces, between the
separators and without the blanks around them, are names or tags with their signs, `!enter` or
`!exit`.  The result is the single chain, or the union of two or more chains, in the order of
the text; a chain refines each atom by those after it. -/
theorem read_iff_rows (text : String) :
    ((∃ selector, read text = .ok selector) ↔
      ∀ row ∈ rows text.toList, ∀ p ∈ row, IsPiece p) ∧
    ∀ selector, read text = .ok selector ↔
      ∃ chains, List.Forall₂ Row (rows text.toList) chains ∧
        (chains = [selector] ∨ 2 ≤ chains.length ∧ selector = .union chains) := by
  constructor
  · rw [← exists_denotes_iff]
    simp only [read_iff_denotes]
    exact ⟨fun ⟨_, chains, hchains, _⟩ => ⟨chains, hchains⟩,
      fun ⟨chains, hchains⟩ => ⟨_, chains, hchains, rfl⟩⟩
  · intro selector
    rw [read_iff_denotes]
    exact exists_congr fun chains => and_congr_right fun hchains =>
      eq_ofChains_iff hchains.ne_nil

example : rows " @door:#open ,!enter".toList =
    [["@door".toList, "#open".toList], ["!enter".toList]] := by
  decide

end Reading

end Selector
end EntityRules
