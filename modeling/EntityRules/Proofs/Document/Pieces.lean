import EntityRules.Proofs.Document.Revision

/-!
# Documents in pieces

A document can be cut into pieces at its fields, and at the members of those fields that are
patches.  No part looks at what another one has done, so the pieces, in any order, come to the same
store as the document as a whole, and they report the same failures.  Malformed parts are no
exception.

**Results.**
* `foldl_fieldParts`, `flatMap_fieldParts`: a field is the fields of its members.
* `takeField_comm`: parts that are independent.
* `write_pieces`: a document and its pieces.
-/

namespace EntityRules
namespace Document

variable {s t : Store} {e : Nat} {c : Component} {fields : Fields}

/-! ## Parts -/

/-- The components whose fields are patches. -/
def patched : List Component := [.transform, .properties, .flex]

/-- The parts of a field: if it is a patch, one field for each of its members. -/
def fieldParts : String × Json → Fields
  | (name, .obj patch) =>
    if name ∈ patched.map key then patch.map fun member => (name, .obj [member])
    else [(name, .obj patch)]
  | entry => [entry]

/-- The parts of a document, which cannot be cut further. -/
def parts (fields : Fields) : Fields := fields.flatMap fieldParts

section Parts

theorem fieldParts_cases (entry : String × Json) :
    fieldParts entry = [entry] ∨ ∃ c ∈ patched, ∃ patch, entry = (key c, .obj patch) ∧
      fieldParts entry = patch.map fun member => (key c, .obj [member]) := by
  obtain ⟨name, given⟩ := entry
  cases given with
  | null | bool | num | str | arr => exact Or.inl rfl
  | obj patch =>
      by_cases hname : name ∈ patched.map key
      · obtain ⟨c, hc, rfl⟩ := List.mem_map.mp hname
        exact Or.inr ⟨c, hc, patch, rfl, if_pos hname⟩
      · exact Or.inl (if_neg hname)

theorem affectsSelection_of_patched (hc : c ∈ patched) : c.affectsSelection = false := by
  revert c
  decide

theorem faults_obj (hc : c ∈ patched) (patch : Fields) :
    faults (.obj patch) c = patch.filterMap (refusal? c) := by
  cases c with
  | transform | properties | flex => rfl
  | name | tags | parent | layout => exact absurd hc (by decide)

/-- A member that is written as a patch of its own. -/
theorem takeField_member (hactive : t.isActive e = true) (c : Component) (member : String × Json) :
    takeField e t (key c, .obj [member]) = t.revise c e (amended c (t.get? c e) member) := by
  rw [takeField_eq hactive, componentOf?_key]
  simp only [becomes_singleton]

theorem foldl_members (hactive : t.isActive e = true) (hc : c ∈ patched) (patch : Fields) :
    (patch.map fun member => (key c, Json.obj [member])).foldl (takeField e) t =
      t.revise c e (patch.foldl (amended c) (t.get? c e)) := by
  induction patch generalizing t with
  | nil => exact (Store.revise_self hactive c).symm
  | cons member patch ih =>
      rw [List.map_cons, List.foldl_cons, List.foldl_cons, ih (isActive_takeField hactive _),
        takeField_member hactive, Store.get?_revise_self hactive,
        Store.revise_revise hactive (affectsSelection_of_patched hc)]

/-- A field sets its component as its parts do one after another. -/
theorem foldl_fieldParts (hactive : t.isActive e = true) (entry : String × Json) :
    (fieldParts entry).foldl (takeField e) t = takeField e t entry := by
  rcases fieldParts_cases entry with hwhole | ⟨c, hc, patch, rfl, hparts⟩
  · rw [hwhole]
    rfl
  · rw [hparts, foldl_members hactive hc, takeField_eq hactive, componentOf?_key]
    simp only [becomes_obj]

theorem foldl_parts (hactive : t.isActive e = true) (fields : Fields) :
    (parts fields).foldl (takeField e) t = fields.foldl (takeField e) t := by
  induction fields generalizing t with
  | nil => rfl
  | cons entry fields ih =>
      rw [parts, List.flatMap_cons, List.foldl_append, foldl_fieldParts hactive, List.foldl_cons]
      exact ih (isActive_takeField hactive entry)

theorem flatMap_fieldParts (entry : String × Json) :
    (fieldParts entry).flatMap reported = reported entry := by
  rcases fieldParts_cases entry with hwhole | ⟨c, hc, patch, rfl, hparts⟩
  · rw [hwhole, List.flatMap_singleton]
  · have hreported (patch : Fields) :
        reported (key c, .obj patch) = patch.filterMap (refusal? c) := by
      simp only [reported, componentOf?_key, faults_obj hc]
    rw [hparts, List.flatMap_map]
    simp only [hreported, ← List.filterMap_flatMap]
    rw [List.flatMap_singleton']

theorem flatMap_parts (fields : Fields) :
    (parts fields).flatMap reported = fields.flatMap reported := by
  rw [parts, List.flatMap_assoc]
  simp only [flatMap_fieldParts]

end Parts

/-! ## Independence -/

/-- Whether neither of two parts can see what the other one does: they are one part, they are fields
of different keys, or they are members of different names. -/
def Independent (part other : String × Json) : Prop :=
  part = other ∨ part.1 ≠ other.1 ∨ ∃ c ∈ patched, ∃ member next : String × Json,
    part = (key c, .obj [member]) ∧ other = (key c, .obj [next]) ∧ member.1 ≠ next.1

section Independence

variable {part other : String × Json}

/-- Different parts of a document are independent. -/
theorem independent_of_mem (hkeyed : Keyed fields) (hpart : part ∈ parts fields)
    (hother : other ∈ parts fields) : Independent part other := by
  obtain ⟨entry, hentry, hpart⟩ := List.mem_flatMap.mp hpart
  obtain ⟨entry', hentry', hother⟩ := List.mem_flatMap.mp hother
  have hkey {entry part : String × Json} (hpart : part ∈ fieldParts entry) : part.1 = entry.1 := by
    rcases fieldParts_cases entry with hwhole | ⟨c, -, patch, rfl, hparts⟩
    · rw [hwhole] at hpart
      rw [List.mem_singleton.mp hpart]
    · rw [hparts] at hpart
      obtain ⟨member, -, rfl⟩ := List.mem_map.mp hpart
      rfl
  rcases eq_or_ne_of_distinct hkeyed.distinct hentry hentry' with rfl | hne
  · rcases fieldParts_cases entry with hwhole | ⟨c, hc, patch, rfl, hparts⟩
    · rw [hwhole] at hpart hother
      exact Or.inl ((List.mem_singleton.mp hpart).trans (List.mem_singleton.mp hother).symm)
    · rw [hparts] at hpart hother
      obtain ⟨member, hmember, rfl⟩ := List.mem_map.mp hpart
      obtain ⟨next, hnext, rfl⟩ := List.mem_map.mp hother
      have hdistinct := hkeyed.members _ hentry patch rfl
      rcases eq_or_ne_of_distinct hdistinct hmember hnext with rfl | hne
      · exact Or.inl rfl
      · exact Or.inr (Or.inr ⟨c, hc, member, next, rfl, rfl, hne⟩)
  · exact Or.inr (Or.inl ((hkey hpart).symm ▸ (hkey hother).symm ▸ hne))

theorem ordered_takeField (hactive : t.isActive e = true)
    (hordered : ∀ c v, t.get? c e = some v → c.Ordered v) (entry : String × Json) :
    ∀ c v, (takeField e t entry).get? c e = some v → c.Ordered v := by
  rw [takeField_eq hactive]
  split
  · next d _ =>
      intro c v hv
      by_cases hcd : d = c
      · subst hcd
        rw [Store.get?_revise_self hactive] at hv
        exact ordered_becomes entry.2 (hordered d) v hv
      · rw [Store.get?_revise_of_ne hcd] at hv
        exact hordered c v hv
  · exact hordered

/-- Independent parts can be taken in any order. -/
theorem takeField_comm (hactive : t.isActive e = true)
    (hordered : ∀ c v, t.get? c e = some v → c.Ordered v) (h : Independent part other) :
    takeField e (takeField e t part) other = takeField e (takeField e t other) part := by
  have hactive' (entry : String × Json) := isActive_takeField hactive entry
  rcases h with rfl | hne | ⟨c, hc, member, next, rfl, rfl, hne⟩
  · rfl
  · rw [takeField_eq (hactive' part), takeField_eq (hactive' other), takeField_eq hactive part,
      takeField_eq hactive other]
    cases hc : componentOf? part.1 with
    | none => rfl
    | some c =>
        cases hd : componentOf? other.1 with
        | none => rfl
        | some d =>
            have hcd : c ≠ d := by
              rintro rfl
              exact hne ((key_of_componentOf? hc).symm.trans (key_of_componentOf? hd))
            simp only [Store.get?_revise_of_ne hcd, Store.get?_revise_of_ne hcd.symm]
            exact Store.revise_comm hactive hcd _ _
  · have hselection := affectsSelection_of_patched hc
    rw [takeField_member (hactive' _), takeField_member (hactive' _), takeField_member hactive,
      takeField_member hactive, Store.get?_revise_self hactive, Store.get?_revise_self hactive,
      Store.revise_revise hactive hselection, Store.revise_revise hactive hselection,
      amended_comm (hordered c) hne]

end Independence

/-! ## Pieces -/

/-- Writes documents to an entity one after another. -/
def writeEach (e : Nat) : List Json → Store → Except Failure Outcome
  | [], s => .ok ⟨s, [], 0⟩
  | document :: rest, s =>
    (write document e s).bind fun first =>
      (writeEach e rest first.store).map fun last =>
        ⟨last.store, first.failures ++ last.failures, first.count + last.count⟩

section Pieces

variable {pieces : List Fields}

/-- Documents that are written one after another are written as one with the fields of all. -/
theorem writeEach_eq (hactive : t.isActive e = true) (pieces : List Fields) :
    ∃ o, writeEach e (pieces.map .obj) t = .ok o ∧
      o.store = pieces.flatten.foldl (takeField e) t ∧
      o.failures = pieces.flatten.flatMap reported := by
  induction pieces generalizing t with
  | nil => exact ⟨_, rfl, rfl, rfl⟩
  | cons piece pieces ih =>
      have hwrite : write (.obj piece) e t = .ok (writeFields t e piece) := if_pos hactive
      obtain ⟨o, hrest, hstore, hfailures⟩ := ih (isActive_writeFields hactive piece)
      have heach : writeEach e ((piece :: pieces).map .obj) t =
          .ok ⟨o.store, (writeFields t e piece).failures ++ o.failures,
            (writeFields t e piece).count + o.count⟩ := by
        rw [List.map_cons, writeEach, hwrite, Except.bind, hrest]
        rfl
      refine ⟨_, heach, ?_, ?_⟩
      · rw [hstore, store_writeFields, List.flatten_cons, List.foldl_append]
      · rw [hfailures, failures_writeFields hactive, List.flatten_cons, List.flatMap_append]

/-- **A document in pieces.**  Each component becomes what its field makes of it, and what is
reported is what is wrong with the fields.  Documents that have the same parts, cut up and put
together in any way, come to the same store when they are written one after another, and report the
same failures. -/
theorem write_pieces (hactive : s.isActive e = true)
    (hordered : ∀ c v, s.get? c e = some v → c.Ordered v) (hkeyed : Keyed fields)
    (hsplit : (pieces.flatMap parts).Perm (parts fields)) :
    ∃ o o', write (.obj fields) e s = .ok o ∧ writeEach e (pieces.map .obj) s = .ok o' ∧
      (∀ c, o.store.get? c e = becomesUnder fields c (s.get? c e)) ∧
      o.failures = fields.flatMap reported ∧
      o'.store = o.store ∧ o'.failures.Perm o.failures := by
  obtain ⟨o', heach, hstore, hfailures⟩ := writeEach_eq hactive pieces
  have hwrite : write (.obj fields) e s = .ok (writeFields s e fields) := if_pos hactive
  have hparts : (parts fields).Perm (parts pieces.flatten) := by
    have hflatten : parts pieces.flatten = pieces.flatMap parts := by
      rw [List.flatten_eq_flatMap]
      exact List.flatMap_assoc
    rw [hflatten]
    exact hsplit.symm
  refine ⟨_, o', hwrite, heach, (get?_writeFields hactive hkeyed.distinct).2,
    failures_writeFields hactive fields, ?_, ?_⟩
  · have horder : (parts fields).foldl (takeField e) s =
        (parts pieces.flatten).foldl (takeField e) s := by
      refine Assoc.foldl_perm
        (fun t => t.isActive e = true ∧ ∀ c v, t.get? c e = some v → c.Ordered v)
        ?_ ?_ hparts ⟨hactive, hordered⟩
      · rintro t ⟨hactive, hordered⟩ part -
        exact ⟨isActive_takeField hactive part, ordered_takeField hactive hordered part⟩
      · rintro t ⟨hactive, hordered⟩ part hpart other hother
        exact takeField_comm hactive hordered (independent_of_mem hkeyed hpart hother)
    calc o'.store = (parts pieces.flatten).foldl (takeField e) s := by
          rw [hstore, foldl_parts hactive]
      _ = (parts fields).foldl (takeField e) s := horder.symm
      _ = (writeFields s e fields).store := by rw [foldl_parts hactive, store_writeFields]
  · rw [hfailures, failures_writeFields hactive, ← flatMap_parts, ← flatMap_parts fields]
    exact (hparts.flatMap_right reported).symm

/-- The parts of `mended` from the last one to the first one, each in a document of its own. -/
def mendedPieces : List Fields := (parts mended).reverse.map fun part => [part]

theorem write_pieces_mended :
    furnished.isActive 0 = true ∧
      (∀ c v, furnished.get? c 0 = some v → Component.Ordered c v) ∧ Keyed mended ∧
      (mendedPieces.flatMap parts).Perm (parts mended) ∧
      ∃ o o', write (.obj mended) 0 furnished = .ok o ∧
        writeEach 0 (mendedPieces.map .obj) furnished = .ok o' ∧
        (∀ c, o.store.get? c 0 = becomesUnder mended c (furnished.get? c 0)) ∧
        o.failures = mended.flatMap reported ∧
        o'.store = o.store ∧ o'.failures.Perm o.failures := by
  have hsplit : (mendedPieces.flatMap parts).Perm (parts mended) := by
    have hreverse : mendedPieces.flatMap parts = (parts mended).reverse := rfl
    rw [hreverse]
    exact List.reverse_perm _
  exact ⟨by decide, ordered_furnished, by decide, hsplit,
    write_pieces (by decide) ordered_furnished (by decide) hsplit⟩

end Pieces

end Document
end EntityRules
