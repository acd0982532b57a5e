import EntityRules.Proofs.Selector.Grammar

/-!
# Where a text stops being a selector

A text that is no selector is refused at a position.  What stands before the position can be
completed to a selector, and with the next character it no longer can.  A name of no event is
refused at its start although it might still grow into the name of an event, so there the character
after the name decides.

The reader has consumed nothing but neutral texts when it asks for the next atom: blanks, and pieces
with the separator after them, on which it does not depend whether the rest can be read.  So a stop
is judged by the rest alone.

**Results.**
* `neutral_blanks`, `neutral_piece`: what the reader consumes is neutral.
* `halts_unexpected`, `halts_expectedIdentifier`, `halts_unknownEvent`: the stops at an atom.
* `halts_of_no_separator`: the stop after an atom.
* `halts_of_readChains`: the stops of the reader of chains, by the recursion of the reader.
* `read_error_position`: the position of an error in a text.
-/

namespace EntityRules

/-- What has to be passed after the position of a fault before a character decides: the name of an
event that is none. -/
def SelectorFault.overrun : SelectorFault → List Char → List Char
  | .unknownEvent _, rest => rest.takeWhile Selector.isIdentifier
  | _, _ => []

namespace Selector

open Text (isBlank trim trimStart AllBlank StartsFilled)

variable {c : Char} {a : Atom} {b f p s t : List Char} {stop : Stop}

/-- Whether the pieces of a text denote chains. -/
def Readable (s : List Char) : Prop := ∃ chains, Denotes s chains

/-- Whether a readable text starts like this. -/
def Opens (s : List Char) : Prop := ∃ t, Readable (s ++ t)

theorem Readable.opens (h : Readable s) : Opens s := ⟨[], by rwa [List.append_nil]⟩

section Neutral

/-- Whether a text before another does not bear on whether it can be read. -/
def Neutral (f : List Char) : Prop := ∀ s, Readable (f ++ s) ↔ Readable s

theorem Neutral.opens_iff (hf : Neutral f) : Opens (f ++ s) ↔ Opens s := by
  refine exists_congr fun t => ?_
  rw [List.append_assoc, hf]

theorem neutral_blanks (hb : AllBlank b) : Neutral b := by
  intro s
  simp only [Readable, Denotes, rows_append_blanks hb]

/-- An atom and the separator after it. -/
theorem neutral_piece (hf : ∀ c ∈ f, ¬IsSeparator c) (h : Leaf (trim f) a) (hc : IsSeparator c) :
    Neutral (f ++ [c]) := by
  intro s
  rw [List.append_assoc, List.singleton_append]
  rcases hc with rfl | rfl
  · constructor
    · rintro ⟨_, hchains⟩
      obtain ⟨rest, hrest, _⟩ := (denotes_colon_iff hf h s).mp hchains
      exact ⟨rest, hrest⟩
    · rintro ⟨rest, hrest⟩
      exact ⟨_, (denotes_colon_iff hf h s).mpr ⟨rest, hrest, rfl⟩⟩
  · constructor
    · rintro ⟨_, hchains⟩
      obtain ⟨rest, hrest, _⟩ := (denotes_comma_iff hf h s).mp hchains
      exact ⟨rest, hrest⟩
    · rintro ⟨rest, hrest⟩
      exact ⟨_, (denotes_comma_iff hf h s).mpr ⟨rest, hrest, rfl⟩⟩

end Neutral

section Stops

/-- A stop in the right place: the text before it opens a selector, and no longer does so with the
character that decides. -/
def Halts (s : List Char) (stop : Stop) : Prop :=
  ∃ before, s = before ++ stop.rest ∧ Opens before ∧
    ∀ c further, stop.rest = stop.fault.overrun stop.rest ++ c :: further →
      ¬Opens (before ++ (stop.fault.overrun stop.rest ++ [c]))

theorem Neutral.halts (hf : Neutral f) (h : Halts s stop) : Halts (f ++ s) stop := by
  obtain ⟨before, rfl, hopens, hblocked⟩ := h
  refine ⟨f ++ before, (List.append_assoc _ _ _).symm, hf.opens_iff.mpr hopens, ?_⟩
  intro c further hrest
  rw [List.append_assoc, hf.opens_iff]
  exact hblocked c further hrest

/-- The signs of atoms. -/
def IsSign (c : Char) : Prop := c = '@' ∨ c = '#' ∨ c = '!'

/-- An atom and blanks are a text of their own. -/
theorem readable_append_blanks (h : Leaf p a) (hb : AllBlank b) : Readable (p ++ b) :=
  ⟨_, (denotes_single_iff (h.append_blanks hb).1 (h.append_blanks hb).2).mpr rfl⟩

theorem readable_of_leaf (h : Leaf p a) : Readable p := by
  have halone := readable_append_blanks h (b := []) fun c hc => nomatch hc
  rwa [List.append_nil] at halone

/-- Every sign can be completed to an atom; the name of an event will do for all of them. -/
theorem opens_sign (hc : IsSign c) : Opens [c] := by
  have hne := name_toList_ne_nil .enter
  have hname := isIdentifier_of_mem_name .enter
  rcases hc with rfl | rfl | rfl
  · exact ⟨_, readable_of_leaf (Leaf.id hne hname)⟩
  · exact ⟨_, readable_of_leaf (Leaf.tag hne hname)⟩
  · exact ⟨_, readable_of_leaf (Leaf.event .enter)⟩

theorem opens_nil : Opens [] := by
  obtain ⟨t, ht⟩ := opens_sign (c := '@') (Or.inl rfl)
  exact ⟨'@' :: t, ht⟩

/-- At the end of a text no character is left to decide. -/
theorem halts_nil (fault : SelectorFault) : Halts [] ⟨fault, []⟩ := by
  refine ⟨[], rfl, opens_nil, fun c further hrest => ?_⟩
  simp at hrest

/-- A text at whose start no atom can be read is not readable. -/
theorem not_readable_of_readAtom (hs : StartsFilled s) (h : readAtom s = .error stop) :
    ¬Readable s := by
  rintro ⟨chains, hchains⟩
  obtain ⟨a, rest, hread, _⟩ := hchains.exists_readAtom hs
  rw [h] at hread
  nomatch hread

theorem IsSign.not_isBlank (hc : IsSign c) : isBlank c = false := by
  rcases hc with rfl | rfl | rfl <;> rfl

theorem readAtom_of_not_isSign (hc : ¬IsSign c) (s : List Char) :
    readAtom (c :: s) = .error ⟨.unexpected c, c :: s⟩ := by
  simp only [IsSign, not_or] at hc
  simp [readAtom, hc]

/-- After a sign there has to be an identifier. -/
theorem readAtom_of_identifier_error {sign : Char} (hsign : IsSign sign)
    (h : identifier sign s = .error stop) : readAtom (sign :: s) = .error stop := by
  rcases hsign with rfl | rfl | rfl <;> simp [readAtom, h, Except.map]

theorem identifier_error_iff {sign : Char} :
    identifier sign s = .error stop ↔
      s.takeWhile isIdentifier = [] ∧ stop = ⟨.expectedIdentifier sign, s⟩ := by
  by_cases hname : s.takeWhile isIdentifier = []
  · simp only [identifier, hname, List.isEmpty_nil, if_true, Except.error.injEq, true_and]
    exact eq_comm
  · simp [identifier, hname]

theorem identifier_ok_iff {sign : Char} {name : String} {rest : List Char} :
    identifier sign s = .ok (name, rest) ↔
      s.takeWhile isIdentifier ≠ [] ∧ name = String.ofList (s.takeWhile isIdentifier) ∧
        rest = s.dropWhile isIdentifier := by
  by_cases hname : s.takeWhile isIdentifier = []
  · simp [identifier, hname]
  · have hfilled : (s.takeWhile isIdentifier).isEmpty = false := by simpa using hname
    simp only [identifier, hfilled, Bool.false_eq_true, if_false, Except.ok.injEq,
      Prod.mk.injEq, ne_eq, hname, not_false_eq_true, true_and]
    exact and_congr eq_comm eq_comm

/-- The stops of the reader of atoms. -/
theorem readAtom_error_cases (h : readAtom s = .error stop) :
    s = [] ∧ stop = ⟨.expectedSelector, []⟩ ∨
    (∃ c t, s = c :: t ∧ ¬IsSign c ∧ stop = ⟨.unexpected c, s⟩) ∨
    (∃ sign t, s = sign :: t ∧ IsSign sign ∧ t.takeWhile isIdentifier = [] ∧
      stop = ⟨.expectedIdentifier sign, t⟩) ∨
    ∃ t, s = '!' :: t ∧ t.takeWhile isIdentifier ≠ [] ∧
      EventKind.ofName? (String.ofList (t.takeWhile isIdentifier)) = none ∧
      stop = ⟨.unknownEvent (String.ofList (t.takeWhile isIdentifier)), t⟩ := by
  cases s with
  | nil => exact Or.inl ⟨rfl, (Except.error.inj h).symm⟩
  | cons c t =>
      by_cases hsign : IsSign c
      · right; right
        cases hidentifier : identifier c t with
        | error stop' =>
            rw [readAtom_of_identifier_error hsign hidentifier] at h
            obtain rfl := Except.error.inj h
            obtain ⟨ht, rfl⟩ := identifier_error_iff.mp hidentifier
            exact Or.inl ⟨c, t, rfl, hsign, ht, rfl⟩
        | ok found =>
            obtain ⟨name, rest⟩ := found
            obtain ⟨hne, hname, _⟩ := identifier_ok_iff.mp hidentifier
            right
            rcases hsign with rfl | rfl | rfl
            · simp [readAtom, hidentifier, Except.map] at h
            · simp [readAtom, hidentifier, Except.map] at h
            · cases hkind : EventKind.ofName? name with
              | none =>
                  simp only [readAtom, hidentifier, hkind] at h
                  exact ⟨t, rfl, hne, hname ▸ hkind, hname ▸ (Except.error.inj h).symm⟩
              | some kind => simp [readAtom, hidentifier, hkind] at h
      · rw [readAtom_of_not_isSign hsign] at h
        exact Or.inr (Or.inl ⟨c, t, rfl, hsign, (Except.error.inj h).symm⟩)

/-- An identifier is taken as far as it goes. -/
theorem not_isIdentifier_of_dropWhile (s : List Char) :
    ∀ c ∈ (s.dropWhile isIdentifier).head?, isIdentifier c = false := by
  intro c hc
  have hhead := List.head?_dropWhile_not isIdentifier s
  rw [Option.mem_def.mp hc] at hhead
  exact hhead

theorem halts_unexpected (hs : StartsFilled (c :: t)) (hc : ¬IsSign c) :
    Halts (c :: t) ⟨.unexpected c, c :: t⟩ := by
  refine ⟨[], rfl, opens_nil, ?_⟩
  rintro d further hrest ⟨u, hu⟩
  obtain ⟨rfl, rfl⟩ := List.cons.inj hrest
  exact not_readable_of_readAtom (Text.startsFilled_cons (hs c rfl) u)
    (readAtom_of_not_isSign hc u) hu

theorem halts_expectedIdentifier {sign : Char} (hsign : IsSign sign)
    (ht : t.takeWhile isIdentifier = []) : Halts (sign :: t) ⟨.expectedIdentifier sign, t⟩ := by
  refine ⟨[sign], rfl, opens_sign hsign, ?_⟩
  rintro c further hrest ⟨u, hu⟩
  obtain rfl : t = c :: further := hrest
  have hnone : (c :: u).takeWhile isIdentifier = [] := by simpa using ht
  exact not_readable_of_readAtom (Text.startsFilled_cons hsign.not_isBlank _)
    (readAtom_of_identifier_error hsign (identifier_error_iff.mpr ⟨hnone, rfl⟩)) hu

/-- The stop is before the name, but only the character after it keeps the name from growing into
that of an event. -/
theorem halts_unknownEvent (hne : t.takeWhile isIdentifier ≠ [])
    (hkind : EventKind.ofName? (String.ofList (t.takeWhile isIdentifier)) = none) :
    Halts ('!' :: t) ⟨.unknownEvent (String.ofList (t.takeWhile isIdentifier)), t⟩ := by
  refine ⟨['!'], rfl, opens_sign (Or.inr (Or.inr rfl)), ?_⟩
  rintro c further hrest ⟨u, hu⟩
  have hdrop : t.dropWhile isIdentifier = c :: further :=
    List.append_cancel_left (List.takeWhile_append_dropWhile.trans hrest)
  have hend : ∀ d ∈ (c :: u).head?, isIdentifier d = false := by
    have hhead := not_isIdentifier_of_dropWhile t
    rwa [hdrop] at hhead
  have hidentifier := identifier_append '!' hne (fun _ => List.mem_takeWhile_imp) hend
  have hread : readAtom ('!' :: (t.takeWhile isIdentifier ++ c :: u)) =
      .error ⟨.unknownEvent (String.ofList (t.takeWhile isIdentifier)),
        t.takeWhile isIdentifier ++ c :: u⟩ := by
    simp [readAtom, hidentifier, hkind]
  refine not_readable_of_readAtom (Text.startsFilled_cons rfl _) hread ?_
  simpa [SelectorFault.overrun] using hu

/-- The stop at an atom that cannot be read. -/
theorem halts_of_readAtom (hs : StartsFilled s) (h : readAtom s = .error stop) : Halts s stop := by
  rcases readAtom_error_cases h with ⟨rfl, rfl⟩ | ⟨c, t, rfl, hc, rfl⟩ |
    ⟨sign, t, rfl, hsign, ht, rfl⟩ | ⟨t, rfl, hne, hkind, rfl⟩
  · exact halts_nil _
  · exact halts_unexpected hs hc
  · exact halts_expectedIdentifier hsign ht
  · exact halts_unknownEvent hne hkind

/-- What is left after an atom does not go on with the identifier of the atom. -/
theorem not_isIdentifier_of_readAtom {rest : List Char} (h : readAtom s = .ok (a, rest)) :
    ∀ c ∈ rest.head?, isIdentifier c = false := by
  cases s with
  | nil => cases h
  | cons sign t =>
      by_cases hsign : IsSign sign
      · cases hidentifier : identifier sign t with
        | error stop =>
            rw [readAtom_of_identifier_error hsign hidentifier] at h
            cases h
        | ok found =>
            obtain ⟨name, rest'⟩ := found
            have hrest : rest' = rest := by
              simp only [readAtom, hidentifier, Except.map] at h
              split_ifs at h
              · exact (Prod.mk.inj (Except.ok.inj h)).2
              · exact (Prod.mk.inj (Except.ok.inj h)).2
              · split at h
                · exact (Prod.mk.inj (Except.ok.inj h)).2
                · cases h
            obtain ⟨_, _, hdrop⟩ := identifier_ok_iff.mp hidentifier
            rw [← hrest, hdrop]
            exact not_isIdentifier_of_dropWhile t
      · rw [readAtom_of_not_isSign hsign] at h
        cases h

/-- The same atom is read from every text that agrees up to the character after the atom and the
blanks that follow it. -/
theorem exists_readAtom_append {rest : List Char} (h : readAtom s = .ok (a, rest)) :
    ∃ p b, s = p ++ (b ++ trimStart rest) ∧ Leaf p a ∧ AllBlank b ∧
      ∀ t, t.head? = (trimStart rest).head? → readAtom (p ++ (b ++ t)) = .ok (a, b ++ t) := by
  obtain ⟨p, rfl, hleaf⟩ := leaf_of_readAtom h
  obtain ⟨b, hb, hrest⟩ := Text.exists_blanks_trimStart rest
  refine ⟨p, b, by rw [← hrest], hleaf, hb, fun t ht => readAtom_of_leaf hleaf ?_⟩
  have hhead : (b ++ t).head? = rest.head? := by
    rw [hrest, List.head?_append, List.head?_append, ht]
  rw [hhead]
  exact not_isIdentifier_of_readAtom h

/-- The stop after an atom that no separator follows. -/
theorem halts_of_no_separator {rest further : List Char} (h : readAtom s = .ok (a, rest))
    (htrim : trimStart rest = c :: further) (hc : ¬IsSeparator c) :
    Halts s ⟨.expectedSeparator, c :: further⟩ := by
  obtain ⟨p, b, rfl, hleaf, hb, hsame⟩ := exists_readAtom_append h
  have hblank : isBlank c = false := by
    have hstart := Text.startsFilled_trimStart rest
    rw [htrim] at hstart
    exact hstart c rfl
  refine ⟨p ++ b, by rw [htrim, List.append_assoc], (readable_append_blanks hleaf hb).opens, ?_⟩
  rintro d further' hstop ⟨u, chains, hdenotes⟩
  obtain ⟨rfl, rfl⟩ := List.cons.inj hstop
  have hchains : Denotes (p ++ (b ++ c :: u)) chains := by
    simpa [SelectorFault.overrun] using hdenotes
  have hfilled : StartsFilled (p ++ (b ++ c :: u)) := by
    obtain ⟨sign, name, rfl, hsign, _⟩ := hleaf.exists_sign
    exact Text.startsFilled_cons (IsSign.not_isBlank hsign) _
  -- whatever comes after the character, it follows the same atom and is no separator
  obtain ⟨_, _, hread, hseparator⟩ := hchains.exists_readAtom hfilled
  rw [hsame (c :: u) (by rw [htrim]; rfl)] at hread
  obtain ⟨rfl, rfl⟩ := Prod.mk.inj (Except.ok.inj hread)
  rw [Text.trimStart_append hb (Text.startsFilled_cons hblank u)] at hseparator
  exact hc (hseparator c rfl)

/-- A stop in the rest of a text, after an atom and a separator. -/
theorem halts_of_rest {rest further : List Char} (h : readAtom s = .ok (a, rest))
    (htrim : trimStart rest = c :: further) (hc : IsSeparator c)
    (hstop : Halts (trimStart further) stop) : Halts s stop := by
  obtain ⟨f, heq, hf, hleaf⟩ := exists_leaf_blanks h
  obtain ⟨b, hb, hblanks⟩ := Text.exists_blanks_trimStart further
  have hsplit : s = f ++ [c] ++ (b ++ trimStart further) := by
    rw [← hblanks, heq, htrim, List.append_assoc, List.singleton_append]
  rw [hsplit]
  exact (neutral_piece hf hleaf hc).halts ((neutral_blanks hb).halts hstop)

/-- Every stop of the reader of chains is in the right place. -/
theorem halts_of_readChains {current : List Atom} {closed : List Selector} (hs : StartsFilled s)
    (h : readChains s current closed = .error stop) : Halts s stop := by
  fun_induction readChains s current closed with
  | case1 s current closed stop' hread =>
      obtain rfl := Except.error.inj h
      exact halts_of_readAtom hs hread
  | case2 => cases h
  | case3 s current closed head rest hread rest' htrim _ ih =>
      exact halts_of_rest hread htrim (Or.inl rfl) (ih (Text.startsFilled_trimStart rest') h)
  | case4 s current closed head rest hread rest' htrim _ _ ih =>
      exact halts_of_rest hread htrim (Or.inr rfl) (ih (Text.startsFilled_trimStart rest') h)
  | case5 s current closed head rest hread c rest' htrim _ hcolon hcomma =>
      obtain rfl := Except.error.inj h
      exact halts_of_no_separator hread htrim fun hc => hc.elim hcolon hcomma

/-- The stop of a reader is in the right place of the text. -/
theorem halts_of_readChars {e : SelectorError} (h : readChars s = .error e) :
    ∃ rest, Halts s ⟨e.fault, rest⟩ ∧ e.position = byteCount s - byteCount rest := by
  obtain ⟨b, hb, hblanks⟩ := Text.exists_blanks_trimStart s
  have hwhole {stop : Stop} (hstop : Halts (trimStart s) stop) : Halts s stop := by
    rw [hblanks]
    exact (neutral_blanks hb).halts hstop
  simp only [readChars] at h
  cases hstart : trimStart s with
  | nil =>
      simp only [hstart, List.isEmpty_nil, if_true] at h
      obtain rfl := Except.error.inj h
      refine ⟨[], hwhole ?_, rfl⟩
      rw [hstart]
      exact halts_nil _
  | cons c t =>
      cases hchains : readChains (trimStart s) [] [] with
      | ok chains =>
          rw [hstart] at hchains
          simp [hstart, hchains] at h
      | error stop =>
          have hstop := halts_of_readChains (Text.startsFilled_trimStart s) hchains
          rw [hstart] at hchains
          simp only [hstart, List.isEmpty_cons, Bool.false_eq_true, if_false, hchains] at h
          obtain rfl := Except.error.inj h
          exact ⟨stop.rest, hwhole hstop, rfl⟩

end Stops

section Positions

/-- Whether a text is the start of one that is read as a selector. -/
def Begins (start : String) : Prop := ∃ rest selector, read (start ++ rest) = .ok selector

theorem begins_iff (start : String) : Begins start ↔ Opens start.toList := by
  have hread (text : String) : (∃ selector, read text = .ok selector) ↔ Readable text.toList := by
    simp only [read_iff_denotes]
    exact ⟨fun ⟨_, chains, hchains, _⟩ => ⟨chains, hchains⟩,
      fun ⟨chains, hchains⟩ => ⟨_, chains, hchains, rfl⟩⟩
  simp only [Begins, hread, String.toList_append]
  constructor
  · rintro ⟨rest, hrest⟩
    exact ⟨rest.toList, hrest⟩
  · rintro ⟨t, ht⟩
    exact ⟨String.ofList t, by rwa [String.toList_ofList]⟩

theorem byteCount_append (s t : List Char) : byteCount (s ++ t) = byteCount s + byteCount t := by
  rw [byteCount, String.ofList_append, String.utf8ByteSize_append]
  rfl

theorem eq_nil_of_byteCount (h : byteCount s = 0) : s = [] := by
  rw [byteCount, String.utf8ByteSize_eq_zero_iff] at h
  rw [← String.toList_ofList (l := s), h]
  rfl

/-- A text is split in one way only at a number of bytes. -/
theorem eq_of_byteCount {s' t' : List Char} (h : s ++ t = s' ++ t')
    (hbytes : byteCount s = byteCount s') : s = s' ∧ t = t' := by
  have hnil {u v w : List Char} (heq : u = v ++ w) (hcount : byteCount v = byteCount u) :
      w = [] := by
    rw [heq, byteCount_append] at hcount
    exact eq_nil_of_byteCount (by omega)
  rcases List.append_eq_append_iff.mp h with ⟨w, hs, ht⟩ | ⟨w, hs, ht⟩
  · obtain rfl := hnil hs hbytes
    exact ⟨by simpa using hs.symm, by simpa using ht⟩
  · obtain rfl := hnil hs hbytes.symm
    exact ⟨by simpa using hs, by simpa using ht.symm⟩

/-- **The position of an error.**  It is a boundary between characters of the text.  The text
before it is the start of a selector.  With the next character it is none; for a name of no event
the character after the name decides, since the name alone might still grow into the name of an
event.  At the end of the text there is no such character, and it is the whole text that is no
selector. -/
theorem read_error_position {text : String} {e : SelectorError} (h : read text = .error e) :
    String.Pos.Raw.IsValid text ⟨e.position⟩ ∧ e.position ≤ text.utf8ByteSize ∧
    ∀ before rest : String, text = before ++ rest → before.utf8ByteSize = e.position →
      let name := e.fault.overrun rest.toList
      Begins before ∧
      (rest.toList = name → ∀ selector, read text ≠ .ok selector) ∧
      ∀ c further, rest.toList = name ++ c :: further →
        ¬Begins (before ++ String.ofList (name ++ [c])) := by
  obtain ⟨tail, ⟨front, htext, hopens, hblocked⟩, hposition⟩ := halts_of_readChars h
  have hfront : e.position = byteCount front := by
    rw [hposition, htext, byteCount_append, Nat.add_sub_cancel]
  have hsplit : text = String.ofList front ++ String.ofList tail := by
    rw [← String.ofList_append, ← htext, String.ofList_toList]
  refine ⟨?_, ?_, ?_⟩
  · rw [String.Pos.Raw.isValid_iff_exists_append]
    exact ⟨_, _, hsplit, String.Pos.Raw.ext hfront⟩
  · rw [hsplit, String.utf8ByteSize_append, hfront]
    exact Nat.le_add_right _ _
  · intro before rest hparts hbytes name
    -- the text is split in one way only at the position
    obtain ⟨rfl, rfl⟩ : front = before.toList ∧ tail = rest.toList := by
      refine eq_of_byteCount ?_ ?_
      · rw [← htext, hparts, String.toList_append]
      · rw [← hfront, ← hbytes, byteCount, String.ofList_toList]
    refine ⟨(begins_iff before).mpr hopens, fun _ selector hok => ?_, fun c further hrest => ?_⟩
    · rw [h] at hok
      nomatch hok
    · rw [begins_iff, String.toList_append, String.toList_ofList]
      exact hblocked c further hrest

/-- A name that no event has, in the second chain of a text, after characters of several bytes. -/
theorem read_error_position_unknownEvent :
    read "@tür, !exito:#a" = .error ⟨.unknownEvent "exito", 8⟩ ∧
    Begins "@tür, !" ∧ ¬Begins "@tür, !exito:" := by
  have hread : read "@tür, !exito:#a" = .error ⟨.unknownEvent "exito", 8⟩ := by decide +kernel
  obtain ⟨_, _, hposition⟩ := read_error_position hread
  obtain ⟨hbegins, _, hblocked⟩ := hposition "@tür, !" "exito:#a" (by decide) (by decide)
  exact ⟨hread, hbegins, hblocked ':' ['#', 'a'] (by decide +kernel)⟩

end Positions

end Selector
end EntityRules
