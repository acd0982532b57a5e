import EntityRules.Proofs.Document.Attributes
import EntityRules.Proofs.Rule.Command
import EntityRules.Proofs.Rule.Pass
import EntityRules.Proofs.Rule.Writes

/-!
# What operations leave as it was

The operations of a rule work on the whole document of an entity, and every field that one of
them aims at is written back with all that is in it.  Yet an attribute keeps the value that is
shown, unless the path of a target lies at, above or below its own: no operation moves it within
the document, and it is given back as it was.  An operation that fails moves nothing at all.

**Results.**
* `Attribute.kept_assign`, `edited_run`: one operation, all operations.
* `Plain.leaves_mutate`, `Plain.leaves_runRule`: one entity, one rule.
* `Driver.runRule_keeps_untouched`: a rule within a pass.
-/

namespace EntityRules

open Document (key)

/-! ## Paths -/

/-- Whether a target bears on a place: one of the two paths is a prefix of the other. -/
def Target.Touches (t : Target) (path : List String) : Prop :=
  t.segments <+: path ∨ path <+: t.segments

/-- Whether no well-formed target of some operations bears on an attribute. -/
def Attribute.Untouched (operations : List Operation) (a : Attribute) : Prop :=
  ∀ op ∈ operations, ∀ t, op.target = .ok t → ¬t.Touches a.path

section Paths

variable {fields fields' : Fields} {value given document : Json} {a : Attribute}

/-- A member of a component stands in a document under its key, beside members in order. -/
def Attribute.Kept (value : Json) (fields : Fields) : Attribute → Prop
  | component _ => True
  | member c name => ∃ sub, Assoc.find? (key c) fields = some (.obj sub) ∧ Assoc.Sorted sub ∧
      Assoc.find? name sub = some value

/-- An assignment to a place that does not bear on a member leaves it where it is. -/
theorem Attribute.kept_assign {t : Target} (hfree : ¬t.Touches a.path) (h : a.Kept value fields)
    (hassign : t.assign (.obj fields) given = .ok (.obj fields')) : a.Kept value fields' := by
  obtain ⟨child, hdocument, hchild⟩ := Target.assignAt_cases hassign
  obtain rfl := Json.obj.inj hdocument
  cases a with
  | component c => trivial
  | member c name =>
      obtain ⟨sub, hsub, hsorted, hmember⟩ := h
      by_cases hroot : t.root = key c
      · -- the target goes through the component, to another of its members
        obtain ⟨steps, leaf, hleaf⟩ := t
        cases steps with
        | nil =>
            obtain rfl : leaf = key c := hroot
            exact absurd (Or.inl ⟨[name], rfl⟩) hfree
        | cons step rest =>
            obtain rfl : step = key c := hroot
            have hinner := hchild (key c) rest rfl
            rw [Target.childOrEmpty, hsub] at hinner
            obtain ⟨last, rfl, -⟩ := Target.assignAt_cases hinner
            have hother : name ≠ rest.headD leaf := by
              rintro rfl
              cases rest with
              | nil => exact hfree (Or.inr ⟨[], rfl⟩)
              | cons next rest => exact hfree (Or.inr ⟨rest ++ [leaf], rfl⟩)
            refine ⟨_, Assoc.find?_insert_self _ _ _, Assoc.sorted_insert hsorted _ last, ?_⟩
            rw [Assoc.find?_insert_of_ne hother, hmember]
      · refine ⟨sub, ?_, hsorted, hmember⟩
        exact (Assoc.find?_insert_of_ne (Ne.symm hroot) child fields).trans hsub

end Paths

/-! ## Documents under operations -/

section Documents

variable {fields : Fields} {value document : Json} {a : Attribute} {operations : List Operation}

/-- A document that operations have made of another one. -/
structure Edited (operations : List Operation) (fields fields' : Fields) : Prop where
  index : Assoc.find? "_index" fields' = Assoc.find? "_index" fields
  sorted : Assoc.Sorted fields → Assoc.Sorted fields'
  kept : ∀ (a : Attribute) value, a.Untouched operations → a.Kept value fields →
    a.Kept value fields'

/-- Operations that do not aim at the number of the entity leave it and what they do not touch. -/
theorem edited_run (table : Expr.Operators) (label : String) (time : Json)
    (survivors : List Json)
    (hindex : ∀ op ∈ operations, ∀ t, op.target = .ok t → t.root ≠ "_index") (fields : Fields) :
    ∃ fields',
      (Mutation.run table label operations
        (.obj (Plain.operationScope time survivors (.obj fields)))).context =
        .obj (Plain.operationScope time survivors (.obj fields')) ∧
      Edited operations fields fields' := by
  have hassign : ∀ document, (∃ fields', document = Json.obj fields' ∧
        Edited operations fields fields') →
      ∀ op ∈ operations, ∀ t value document', op.target = .ok t →
        t.assign document value = .ok document' →
        ∃ fields', document' = Json.obj fields' ∧ Edited operations fields fields' := by
    rintro _ ⟨fields', rfl, hedited⟩ op hop t value document' htarget hassign
    obtain ⟨child, rfl⟩ := Target.assign_obj hassign
    refine ⟨_, rfl, ?_, fun h => Assoc.sorted_insert (hedited.sorted h) t.root child,
      fun a given hfree hkept => ?_⟩
    · rw [Assoc.find?_insert_of_ne (Ne.symm (hindex op hop t htarget)), hedited.index]
    · exact Attribute.kept_assign (hfree op hop t htarget) (hedited.kept a given hfree hkept)
        hassign
  obtain ⟨document', hcontext, fields', rfl, hedited⟩ :=
    Mutation.run_preserves table label time survivors operations hassign (.obj fields)
      ⟨fields, rfl, rfl, id, fun _ _ _ h => h⟩
  exact ⟨fields', hcontext, hedited⟩

/-- A natural number is read as itself or, if it is too large, not at all. -/
theorem Json.nat?_ofNat {e n : Nat} (h : (Json.ofNat e).nat? = some n) : n = e := by
  have hreal (x : Float) : (Json.ofFloat x).nat? = none := by
    rw [Json.ofFloat]
    split <;> rfl
  have hword {k : Int} (hk) : (Json.num (.int k hk)).nat? = some n → k = n := by
    cases k with
    | ofNat k => exact fun heq => congrArg Int.ofNat (Option.some.inj heq)
    | negSucc k =>
        intro heq
        cases heq
  rw [Json.ofNat, Json.ofInt] at h
  split at h
  · next hrange => exact (Int.ofNat.inj (hword hrange h)).symm
  · rw [← Json.ofFloat, hreal] at h
    cases h

theorem Document.eq_of_indexOf {e i : Nat} (hindex : Assoc.find? "_index" fields = some (.ofNat e))
    (h : indexOf (.obj fields) = .ok i) : i = e := by
  have hget : (Json.obj fields).get? "_index" = some (.ofNat e) := hindex
  rw [indexOf, hget, Option.bind_some] at h
  cases hread : (Json.ofNat e).nat?.filter (· < UInt32.size) with
  | none =>
      rw [hread] at h
      cases h
  | some n =>
      rw [hread] at h
      obtain rfl := Except.ok.inj h
      exact Json.nat?_ofNat (Option.filter_eq_some_iff.mp hread).1

/-- A document names an active entity. -/
theorem Store.resolve_eq_ok_iff {s : Store} {e : Nat} :
    s.resolve document = .ok e ↔ Document.indexOf document = .ok e ∧ s.isActive e = true := by
  cases hindex : Document.indexOf document with
  | error fault =>
      simp only [resolve, hindex]
      exact iff_of_false (fun h => by cases h) fun h => by cases h.1
  | ok i =>
      simp only [resolve, hindex, entity]
      by_cases hrange : s.capacity ≤ i
      · have hfree : s.isActive i ≠ true := fun h =>
          Nat.not_lt_of_le hrange (lt_capacity_of_isActive h)
        simp only [if_pos hrange]
        refine ⟨fun h => (by cases h), fun h => ?_⟩
        obtain rfl := Except.ok.inj h.1
        exact absurd h.2 hfree
      · cases hactive : s.isActive i with
        | true =>
            simp only [if_neg hrange, if_true]
            exact ⟨fun h => ⟨h, Except.ok.inj h ▸ hactive⟩, fun h => h.1⟩
        | false =>
            simp only [if_neg hrange, Bool.false_eq_true, if_false]
            refine ⟨fun h => (by cases h), fun h => ?_⟩
            obtain rfl := Except.ok.inj h.1
            rw [hactive] at h
            cases h.2

end Documents

/-! ## Stores under operations -/

/-- What some operations have left of a store: the entities are active as before, and what is
shown of an attribute that no operation touches is shown again, unless there is a null in it. -/
structure Store.Leaves (operations : List Operation) (s t : Store) : Prop where
  active : ∀ e, t.isActive e = s.isActive e
  views : ∀ e (a : Attribute) value, a.Untouched operations → value.nullFree = true →
    a.view? s e = some value → a.view? t e = some value

section Stores

open Store (SameElsewhere)

variable {operations : List Operation} {s t u : Store} {e : Nat}

theorem Store.Leaves.refl (operations : List Operation) (s : Store) : s.Leaves operations s where
  active _ := rfl
  views _ _ _ _ _ h := h

theorem Store.Leaves.trans (hst : s.Leaves operations t) (htu : t.Leaves operations u) :
    s.Leaves operations u where
  active e := (htu.active e).trans (hst.active e)
  views e a value hfree hnull h :=
    htu.views e a value hfree hnull (hst.views e a value hfree hnull h)

/-- What is shown of an attribute stands in the document of its entity. -/
theorem Attribute.kept_members (h : s.Everywhere Component.Ordered)
    (hactive : s.isActive e = true) {a : Attribute} {value : Json}
    (hshown : a.view? s e = some value) : a.Kept value (Document.members s e) := by
  cases a with
  | component c => trivial
  | member c name =>
      obtain ⟨field, hfield, hmember⟩ := Option.bind_eq_some_iff.mp hshown
      cases field with
      | null | bool | num | str | arr => cases hmember
      | obj sub =>
          refine ⟨sub, (Document.find?_members_key hactive c).trans hfield, ?_, hmember⟩
          obtain ⟨v, hv, hsub⟩ := Option.bind_eq_some_iff.mp hfield
          exact Document.sorted_shown (h e c v hv) hsub

/-- The fields at which operations aim, of a document that they have edited, give every other
attribute back. -/
theorem Attribute.givenBack_patch {fields fields' patch : Fields} {a : Attribute} {value : Json}
    (hfree : a.Untouched operations) (hkept : a.Kept value fields)
    (hedited : Edited operations fields fields')
    (hpatch : ∀ name, Assoc.find? name patch =
      if name ∈ (Command.mutate operations).changedFields then Assoc.find? name fields'
      else none) : a.GivenBack value patch := by
  cases a with
  | component c =>
      -- every target under the component would touch it
      have hout : key c ∉ (Command.mutate operations).changedFields := by
        intro hmem
        obtain ⟨op, hop, t, htarget, hroot⟩ := Command.mem_changedFields.mp hmem
        obtain ⟨steps, leaf, hleaf⟩ := t
        refine hfree op hop _ htarget (Or.inr ?_)
        cases steps with
        | nil => exact ⟨[], congrArg (fun k => [k]) hroot.symm⟩
        | cons step rest =>
            obtain rfl : step = key c := hroot
            exact ⟨rest ++ [leaf], rfl⟩
      rw [GivenBack, hpatch, if_neg hout]
  | member c name =>
      obtain ⟨sub, hsub, hsorted, hmember⟩ := hedited.kept _ value hfree hkept
      intro given hgiven
      rw [hpatch] at hgiven
      split at hgiven
      · exact ⟨sub, Option.some.inj (hgiven.symm.trans hsub), hsorted, hmember⟩
      · cases hgiven

/-- Fields that operations have edited, written back: other entities stay as they are, and so does
what the operations do not touch. -/
theorem leaves_write (h : s.Everywhere Component.Ordered) {fields' : Fields}
    (hedited : Edited operations (Document.members s e) fields') {o : Document.Outcome}
    (hwrite : Document.write (Plain.touched operations (.obj fields')) e s = .ok o) :
    s.Leaves operations o.store := by
  have hfields := hedited.sorted (Document.sorted_members s e)
  obtain ⟨patch, heq, hsorted, hpatch⟩ :=
    Pass.patchOf_obj fields' (Command.mutate operations).changedFields
  rw [Plain.touched_eq_patchOf hfields, heq] at hwrite
  have hsame := Document.sameElsewhere_write hwrite
  have hactive : s.isActive e = true := by
    by_contra hgone
    rw [Document.write, if_neg hgone] at hwrite
    cases hwrite
  refine ⟨fun i => ?_, fun i a value hfree hnull hshown => ?_⟩
  · by_cases hi : i = e
    · subst hi
      exact ((Document.get?_write hsorted.distinct hwrite).1).trans hactive.symm
    · rw [Store.isActive, hsame i hi, Store.isActive]
  · by_cases hi : i = e
    · subst hi
      have hkept := a.kept_members h hactive hshown
      exact a.view?_write hsorted.distinct hwrite
        (Attribute.givenBack_patch hfree hkept hedited hpatch) hnull hshown
    · have hget (c : Component) : o.store.get? c i = s.get? c i := by
        rw [Store.get?, Store.isActive, hsame i hi, Store.get?, Store.isActive]
      cases a with
      | component c => rw [Attribute.view?, hget]; exact hshown
      | member c name => rw [Attribute.view?, hget]; exact hshown

end Stores

/-! ## Rules -/

namespace Plain

open Store (SameElsewhere)

variable {q : Plain} {operations : List Operation}

theorem store_skip (q : Plain) (e : Failure) : (q.skip e).store = q.store := by
  cases e <;> rfl

/-- Operations on one entity. -/
theorem leaves_mutate (table : Expr.Operators) (time : Json)
    (hindex : ∀ op ∈ operations, ∀ t, op.target = .ok t → t.root ≠ "_index")
    (h : q.store.Everywhere Component.Ordered) (label : String) (survivors : List Json) (e : Nat) :
    let q' := q.mutate table time label operations survivors e
    q'.store.Everywhere Component.Ordered ∧ SameElsewhere e q.store q'.store ∧
      q.store.Leaves operations q'.store := by
  have hstays : q.store.Everywhere Component.Ordered ∧ SameElsewhere e q.store q.store ∧
      q.store.Leaves operations q.store := ⟨h, .refl e q.store, .refl operations q.store⟩
  cases hread : Document.read? q.store e with
  | none =>
      simp only [mutate, hread]
      exact hstays
  | some document =>
      obtain ⟨-, hdocument⟩ := Document.read?_eq_some_iff.mp hread
      obtain ⟨fields', hcontext, hedited⟩ :=
        edited_run table label time survivors hindex (Document.members q.store e)
      rw [hdocument] at hcontext
      have hself : ((Mutation.run table label operations
          (.obj (operationScope time survivors document))).context.get? "self").getD .null =
            .obj fields' := by
        rw [hcontext]
        rfl
      simp only [mutate, hread, hself]
      split
      · next target hresolve =>
          -- the number of the entity is as it was, so the document goes back to it
          have hshown : Assoc.find? "_index" fields' = some (.ofNat e) := by
            rw [hedited.index]
            rfl
          obtain rfl := Document.eq_of_indexOf hshown (Store.resolve_eq_ok_iff.mp hresolve).1
          simp only [write]
          split
          · next o hwrite =>
              exact ⟨Document.everywhere_write (Document.respects_ordered _) hwrite h,
                Document.sameElsewhere_write hwrite, leaves_write h hedited hwrite⟩
          · rw [store_skip]
            exact hstays
      · rw [store_skip]
        exact hstays

/-- Operations on one entity after another change the slots of these entities only. -/
theorem leaves_foldl (table : Expr.Operators) (time : Json)
    (hindex : ∀ op ∈ operations, ∀ t, op.target = .ok t → t.root ≠ "_index")
    (h : q.store.Everywhere Component.Ordered) (label : String) (survivors : List Json)
    (entities : List Nat) :
    let q' := entities.foldl (mutate table time label operations survivors) q
    (∀ e, e ∉ entities → q'.store.slot e = q.store.slot e) ∧
      q.store.Leaves operations q'.store := by
  induction entities generalizing q with
  | nil => exact ⟨fun _ _ => rfl, .refl operations q.store⟩
  | cons e entities ih =>
      obtain ⟨hordered, hsame, hleaves⟩ := leaves_mutate table time hindex h label survivors e
      obtain ⟨hslots, hrest⟩ := ih hordered
      refine ⟨fun i hi => ?_, hleaves.trans hrest⟩
      obtain ⟨hne, hout⟩ := not_or.mp (mt List.mem_cons.mpr hi)
      exact (hslots i hout).trans (hsame i hne)

/-- The targets of survivors are the active entities that they name. -/
theorem mem_targets_iff {s : Store} {survivors : List Json} {e : Nat} :
    e ∈ targets s survivors ↔
      (∃ survivor ∈ survivors, Document.indexOf survivor = .ok e) ∧ s.isActive e = true := by
  constructor
  · intro h
    obtain ⟨answer, hanswer, htaken⟩ := List.mem_filterMap.mp h
    obtain ⟨survivor, hsurvivor, rfl⟩ := List.mem_map.mp hanswer
    cases hresolve : s.resolve survivor with
    | error fault =>
        rw [hresolve] at htaken
        cases htaken
    | ok i =>
        rw [hresolve] at htaken
        obtain rfl := Option.some.inj htaken
        obtain ⟨hindex, hactive⟩ := Store.resolve_eq_ok_iff.mp hresolve
        exact ⟨⟨survivor, (List.mem_filter.mp hsurvivor).1, hindex⟩, hactive⟩
  · rintro ⟨⟨survivor, hsurvivor, hindex⟩, hactive⟩
    have hpresent : (!survivor.isNull) = true := by
      cases survivor with
      | null => cases hindex
      | bool | num | str | arr | obj => rfl
    refine List.mem_filterMap.mpr ⟨.ok e, List.mem_map.mpr ⟨survivor, ?_, ?_⟩, rfl⟩
    · exact List.mem_filter.mpr ⟨hsurvivor, hpresent⟩
    · exact Store.resolve_eq_ok_iff.mpr ⟨hindex, hactive⟩

/-- A rule whose operations do not aim at the numbers of entities. -/
theorem leaves_runRule (table : Expr.Operators) (time : Json) {active : ActiveRule}
    (hcommand : active.rule.command = .mutate operations)
    (hindex : ∀ op ∈ operations, ∀ t, op.target = .ok t → t.root ≠ "_index")
    (h : q.store.Everywhere Component.Ordered) (r : Registry) :
    let q' := q.runRule table time r active
    (∀ e, (∀ found, survivors table time r q.store active = .ok found →
        ∀ survivor ∈ found, Document.indexOf survivor ≠ .ok e) →
      q'.store.slot e = q.store.slot e) ∧
    q.store.Leaves operations q'.store := by
  cases hfound : survivors table time r q.store active with
  | error fault =>
      simp only [runRule, hfound]
      exact ⟨fun _ _ => rfl, .refl operations q.store⟩
  | ok found =>
      have hstore (counted : Plain) (faults : List Failure) :
          (faults.foldl skip counted).store = counted.store := by
        exact List.foldlRecOn faults skip (motive := fun q => q.store = counted.store) rfl
          fun q hq e _ => (q.store_skip e).trans hq
      simp only [runRule, hfound, execute, hcommand]
      obtain ⟨hslots, hleaves⟩ := leaves_foldl table time
        (q := (faults q.store found).foldl skip
          { q with report := { q.report with rulesRun := q.report.rulesRun + 1 } })
        hindex (by rw [hstore]; exact h) active.rule.label found (targets q.store found)
      rw [hstore] at hslots hleaves
      refine ⟨fun e hnamed => hslots e fun hmem => ?_, hleaves⟩
      obtain ⟨⟨survivor, hsurvivor, hindexed⟩, -⟩ := mem_targets_iff.mp hmem
      exact hnamed found rfl survivor hsurvivor hindexed

end Plain

/-! ## Passes -/

namespace Driver

variable {table : Expr.Operators} {d : Driver}

/-- **What a rule of a pass leaves as it was.**  Take a rule within a pass whose operations do not
aim at the numbers of entities.  An entity whose document has no null when the rule comes to it
shows every attribute afterwards as it showed it before, unless some target of the rule bears on
the attribute, and whether or not operations fail.  An entity that no survivor names keeps its
whole slot. -/
theorem runRule_keeps_untouched (hd : Used table d) (deltaTime : Float) (b : RuleBook)
    (r : Registry) (s : Store) (diagnostics : Diagnostics)
    (hordered : s.Everywhere Component.Ordered) {earlier later : List ActiveRule}
    {active : ActiveRule} (hrules : b.toList = earlier ++ active :: later)
    {operations : List Operation} (hcommand : active.rule.command = .mutate operations)
    (hindex : ∀ op ∈ operations, ∀ t, op.target = .ok t → t.root ≠ "_index") :
    let p := earlier.foldl (Pass.runRule r) ⟨d.begin s.capacity deltaTime, s, diagnostics, {}⟩
    let p' := Pass.runRule r p active
    later.foldl (Pass.runRule r) p' = d.run deltaTime b r s diagnostics ∧
    (∀ e document, Document.read? p.store e = some document → document.nullFree = true →
      ∃ document', Document.read? p'.store e = some document' ∧
        ∀ (a : Attribute) value, a.Untouched operations → document.at? a.path = some value →
          document'.at? a.path = some value) ∧
    ∀ e, (∀ survivors, (p.filter r active).2 = .ok survivors →
        ∀ survivor ∈ survivors, Document.indexOf survivor ≠ .ok e) →
      p'.store.slot e = p.store.slot e := by
  intro p p'
  obtain ⟨time, t, hready⟩ := hd.ready
  have hbegin : Pass.Agrees table (Plain.timeOf deltaTime) [] diagnostics
      ⟨d.begin s.capacity deltaTime, s, diagnostics, {}⟩ { store := s } :=
    ⟨hready.begin s.capacity deltaTime s, rfl, rfl, rfl⟩
  have hagrees := hbegin.runRules r earlier
  have hnext := hagrees.runRule r active
  have hfilter := (hagrees.filter r active).2
  have hreached : p.store.Everywhere Component.Ordered :=
    List.foldlRecOn earlier (Pass.runRule r)
      (motive := fun p => p.store.Everywhere Component.Ordered) hordered
      fun _ hp _ _ => Pass.everywhere_runRule hp fun _ _ => Document.respects_ordered _
  rw [hagrees.store] at hreached
  obtain ⟨hslots, hleaves⟩ :=
    Plain.leaves_runRule table (Plain.timeOf deltaTime) hcommand hindex hreached r
  rw [← hnext.store, ← hagrees.store] at hslots hleaves
  refine ⟨?_, fun e document hread hnull => ?_, fun e hnamed => ?_⟩
  · rw [run, hrules, List.foldl_append, List.foldl_cons]
  · obtain ⟨hactive, rfl⟩ := Document.read?_eq_some_iff.mp hread
    have hactive' : p'.store.isActive e = true := (hleaves.active e).trans hactive
    refine ⟨_, Document.read?_eq_some_iff.mpr ⟨hactive', rfl⟩, fun a value hfree hat => ?_⟩
    have hvalue := Json.nullFree_of_at? hnull hat
    rw [Attribute.at?_members hactive] at hat
    rw [Attribute.at?_members hactive']
    exact hleaves.views e a value hfree hvalue hat
  · refine hslots e fun found hfound => hnamed found ?_
    rw [hfilter]
    exact hagrees.store ▸ hfound

/-- The entity with the tag `door`, with properties and a transform. -/
def chestStore : Store :=
  ((doorStore.insert .properties 1 [("locked", .bool true), ("width", .number 2.5)]).1.insert
    .transform 1 {}).1

/-- Two operations on one property, the second of which is blocked by the value of the first. -/
def openChest : List Operation :=
  [⟨.ok ⟨["properties"], "opened", by decide⟩, .bool true⟩,
    ⟨.ok ⟨["properties", "opened"], "wide", by decide⟩, .bool true⟩]

def chestRule : ActiveRule :=
  ⟨⟨"open", .atom (.tag "door"), RuleDefinition.keepAll, .mutate openChest⟩, 0⟩

def chestRules : RuleBook := ⟨.new 0, ⟨[chestRule], 1, 0⟩⟩

def chestSelectors : Registry :=
  ((Registry.new 1 3).track (.atom (.tag "door"))).1.recalculate chestStore

theorem ordered_chestStore : chestStore.Everywhere Component.Ordered := by
  intro e c v hv
  cases c with
  | name | tags | transform | parent | flex | layout => trivial
  | properties =>
      rcases e with _ | _ | _ | e
      · cases hv
      · have hkeys : ["locked", "width"].Pairwise (· < ·) := by decide
        obtain rfl : [("locked", Property.bool true), ("width", .number 2.5)] = v :=
          Option.some.inj hv
        exact List.pairwise_map.mp hkeys
      · cases hv
      · cases hv

theorem openChest_targets {P : Target → Prop} (h : P ⟨["properties"], "opened", by decide⟩)
    (h' : P ⟨["properties", "opened"], "wide", by decide⟩) :
    ∀ op ∈ openChest, ∀ t, op.target = .ok t → P t := by
  intro op hop t ht
  rcases List.mem_pair.mp hop with rfl | rfl
  · exact Except.ok.inj ht ▸ h
  · exact Except.ok.inj ht ▸ h'

instance (t : Target) (path : List String) : Decidable (t.Touches path) :=
  inferInstanceAs (Decidable (_ ∨ _))

theorem runRule_keeps_untouched_chest :
    let p : Pass := ⟨doorDriver.begin chestStore.capacity 0, chestStore, {}, {}⟩
    let p' := Pass.runRule chestSelectors p chestRule
    p'.diagnostics.history.length = 1 ∧ p'.store.slot 2 = chestStore.slot 2 ∧
    ∃ document', Document.read? p'.store 1 = some document' ∧
      document'.at? ["tags"] = some (.ofStrings ["door"]) ∧
      document'.at? ["properties", "width"] = some (.number 2.5) ∧
      document'.at? ["transform", "scale"] = some (Document.ofVec3 ⟨1, 1, 1⟩) := by
  intro p p'
  have hused : Used .standard doorDriver := .run _ _ _ _ _ (.new 3)
  have hsurvivors : ((p.filter chestSelectors chestRule).2.toOption.getD []).all
      (fun survivor => (Document.indexOf survivor).toOption != some 2) = true := by
    decide +kernel
  have hrules : chestRules.toList = [] ++ chestRule :: [] := rfl
  have hcommand : chestRule.rule.command = .mutate openChest := rfl
  obtain ⟨-, hviews, hslots⟩ :=
    runRule_keeps_untouched hused 0 chestRules chestSelectors chestStore {} ordered_chestStore
      hrules hcommand (openChest_targets (by decide) (by decide))
  obtain ⟨document', hread, hkeeps⟩ := hviews 1 (.obj (Document.members chestStore 1)) rfl
    (by decide +kernel)
  refine ⟨by decide +kernel, hslots 2 fun survivors hfilter survivor hmem hindex => ?_, document',
    hread, ?_, ?_, ?_⟩
  · have hother : (p.filter chestSelectors chestRule).2 = .ok survivors := hfilter
    rw [hother] at hsurvivors
    have hne := List.all_eq_true.mp hsurvivors survivor hmem
    rw [hindex] at hne
    cases hne
  · exact hkeeps (.component .tags) _ (openChest_targets (by decide) (by decide)) rfl
  · exact hkeeps (.member .properties "width") _ (openChest_targets (by decide) (by decide)) rfl
  · exact hkeeps (.member .transform "scale") _ (openChest_targets (by decide) (by decide)) rfl

end Driver
end EntityRules
