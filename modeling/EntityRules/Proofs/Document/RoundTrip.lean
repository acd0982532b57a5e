import EntityRules.Proofs.Document.Frame
import EntityRules.Proofs.Document.Values
import EntityRules.Proofs.Selector.Canonical

/-!
# A document written back to its entity

The document that is read from an entity shows its components one by one, and each field that is
written changes one component only.  A name and tags that are shown are found unchanged and not
written; every other component is replaced by one that is equal, numbers compared numerically.

**Results.**
* `writeField_shown`: what the field of one component does, one case per component.
* `kept_writeFields`: what the fields of all components do, one after another.
* `write_read`: the document of an entity, written back, keeps every component.
-/

namespace EntityRules

/-- The values that a document brings back: all numbers are finite, a name is not empty, and some
text is read as the parent.  Properties are in the order of their keys, as every patch leaves
them (`Document.sorted_changeProperties`). -/
def Component.Restorable : (c : Component) → c.Value → Prop
  | .name, text => text ≠ ""
  | .tags, _ => True
  | .transform, t => Transform.isFinite t = true
  | .properties, p => Assoc.Sorted p ∧ ∀ entry ∈ p, entry.2.isFinite = true
  | .parent, p => ∃ text, Selector.read text = .ok p
  | .flex, s => FlexStyle.isFinite s = true
  | .layout, l => Layout.isFinite l = true

namespace Document

open Store (SameElsewhere)

variable {s t : Store} {e : Nat} {c d : Component}

section Shown

/-- The key under which a component is shown. -/
def key : Component → String
  | .name => "id"
  | .tags => "tags"
  | .transform => "transform"
  | .properties => "properties"
  | .parent => "parent"
  | .flex => "flex"
  | .layout => "layout"

/-- What a document shows of a component; a style without attributes is not shown. -/
def shown : (c : Component) → c.Value → Option Json
  | .name, name => some (.str name)
  | .tags, tags => some (.ofStrings tags.toList)
  | .transform, t => some (ofTransform t)
  | .properties, p => some (ofProperties p)
  | .parent, p => some (.str p.text)
  | .flex, s => if FlexStyle.isEmpty s then none else some (ofFlex s)
  | .layout, l => some (ofLayout l)

/-- The components in the order of their keys. -/
def inKeyOrder : List Component :=
  [.flex, .name, .layout, .parent, .properties, .tags, .transform]

/-- The fields for some components of an entity. -/
def fieldsOf (components : Components) (cs : List Component) : Fields :=
  present (cs.map fun c => (key c, (components.get c).bind (shown c)))

theorem fieldsOf_cons_of_none {components : Components} {cs : List Component}
    (h : (components.get c).bind (shown c) = none) :
    fieldsOf components (c :: cs) = fieldsOf components cs := by
  rw [fieldsOf, List.map_cons, h]
  rfl

theorem fieldsOf_cons_of_some {components : Components} {cs : List Component} {value : Json}
    (h : (components.get c).bind (shown c) = some value) :
    fieldsOf components (c :: cs) = (key c, value) :: fieldsOf components cs := by
  rw [fieldsOf, List.map_cons, h]
  rfl

theorem ofComponents_eq (e : Nat) (components : Components) :
    ofComponents e components = ("_index", .ofNat e) :: fieldsOf components inKeyOrder := by
  have hflex : (components.flex.filter (!·.isEmpty)).map ofFlex =
      components.flex.bind (shown .flex) := by
    cases components.flex with
    | none => rfl
    | some style => cases hempty : style.isEmpty <;> simp [shown, hempty]
  simp only [ofComponents, hflex, Option.map_eq_bind]
  rfl

end Shown

section Patches

/-- All vectors of a transform are replaced by equal ones. -/
theorem patchTransform_ofTransform {t : Transform} (h : t.isFinite = true) :
    ∃ patch u, ofTransform t = .obj patch ∧ patchTransform t patch = ⟨u, true, []⟩ ∧
      (u == t) = true := by
  simp only [Transform.isFinite, Bool.and_eq_true] at h
  obtain ⟨⟨⟨hposition, hrotation⟩, hscale⟩, hanchor⟩ := h
  obtain ⟨position, hreadPosition, hequalPosition⟩ := toVec3_ofVec3 hposition
  obtain ⟨rotation, hreadRotation, hequalRotation⟩ := toRotation_ofRotation hrotation
  obtain ⟨scale, hreadScale, hequalScale⟩ := toVec3_ofVec3 hscale
  obtain ⟨anchor, hreadAnchor, hequalAnchor⟩ := toVec3_ofVec3 hanchor
  refine ⟨_, ⟨position, rotation, scale, anchor⟩, rfl, ?_, ?_⟩
  · simp [patchTransform, patchVector, hreadPosition, hreadRotation, hreadScale, hreadAnchor,
      Except.map, Patched.step]
  · simp only [Transform.beq_eq, hequalPosition, hequalRotation, hequalScale, hequalAnchor,
      Bool.and_self]

theorem ofKey?_key (a : FlexAttribute) : FlexAttribute.ofKey? a.key = some a := by
  cases a <;> rfl

/-- A style under a patch that has gone well so far and has not changed it. -/
structure Unchanged (style : FlexStyle) (p : Patched FlexStyle) : Prop where
  failures : p.failures = []
  same : ∀ a, (p.value.get a == style.get a) = true

/-- An attribute that is shown leaves the style unchanged. -/
theorem unchanged_step {style : FlexStyle} {p : Patched FlexStyle} {a : FlexAttribute}
    {v : a.Value} (hp : Unchanged style p) (hget : style.get a = some v)
    (h : a.isFinite v = true) (field : String) :
    Unchanged style
      (p.step field ((toAttribute (ofAttribute a v) a).map (p.value.set a))) := by
  obtain ⟨w, hread, hequal⟩ := toAttribute_ofAttribute a h
  rw [hread]
  refine ⟨hp.failures, fun b => ?_⟩
  by_cases hab : a = b
  · subst hab
    simp only [Patched.step, Except.map, FlexStyle.get_set_self, hget]
    exact hequal
  · simp only [Patched.step, Except.map, FlexStyle.get_set_of_ne _ hab]
    exact hp.same b

/-- One part of a patch of a style. -/
def applyAttribute (p : Patched FlexStyle) (entry : String × Json) : Patched FlexStyle :=
  match FlexAttribute.ofKey? entry.1 with
  | some a => p.step ("flex." ++ entry.1) ((toAttribute entry.2 a).map (p.value.set a))
  | none => p

theorem patchFlex_eq (style : FlexStyle) (patch : Fields) :
    patchFlex style patch = patch.foldl applyAttribute { value := style } := rfl

/-- All attributes that are shown leave the style unchanged. -/
theorem unchanged_foldl {style : FlexStyle} (h : style.isFinite = true)
    (as : List FlexAttribute) {p : Patched FlexStyle} (hp : Unchanged style p) :
    Unchanged style
      ((present (as.map fun a => (a.key, (style.get a).map (ofAttribute a)))).foldl
        applyAttribute p) := by
  induction as generalizing p with
  | nil => exact hp
  | cons a as ih =>
      cases hget : style.get a with
      | none =>
          simp only [List.map_cons, hget, Option.map_none]
          exact ih hp
      | some v =>
          have hfinite : a.isFinite v = true := style.isFinite_get h hget
          have hstep : Unchanged style (applyAttribute p (a.key, ofAttribute a v)) := by
            simp only [applyAttribute, ofKey?_key]
            exact unchanged_step hp hget hfinite _
          simp only [List.map_cons, hget, Option.map_some]
          exact ih hstep

/-- A finite property is read as an equal one. -/
theorem propertyChange_ofProperty {v : Property} (h : v.isFinite = true) :
    ∃ w, propertyChange (ofProperty v) = .ok (some w) ∧ (w == v) = true := by
  cases v with
  | bool b => exact ⟨.bool b, rfl, beq_self_eq_true b⟩
  | text text => exact ⟨.text text, rfl, beq_self_eq_true text⟩
  | number x =>
      obtain ⟨q, hvalue⟩ := (Numeric.isFinite_iff_value? x).mp h
      obtain ⟨n, hshown, hn⟩ := number_exact hvalue
      refine ⟨.number n.toFloat, ?_, (Numeric.beq_iff_value? hn hvalue).mpr rfl⟩
      rw [ofProperty, hshown]
      rfl

/-- Equal properties under the same keys, in one order. -/
abbrev SameEntries (p q : Properties) : Prop :=
  List.Forall₂ (fun a b => a.1 = b.1 ∧ (a.2 == b.2) = true) p q

theorem SameEntries.beq {p q : Properties} (h : SameEntries p q) : (p == q) = true := by
  induction h with
  | nil => rfl
  | cons hentry _ ih =>
      obtain ⟨hkey, hvalue⟩ := hentry
      simp only [List.cons_beq_cons, Bool.and_eq_true, ih, and_true]
      exact Bool.and_eq_true_iff.mpr ⟨beq_iff_eq.mpr hkey, hvalue⟩

/-- Properties that are shown are read as equal ones under the same keys. -/
theorem propertyChanges_ofProperties {p : Properties}
    (h : ∀ entry ∈ p, entry.2.isFinite = true) :
    ∃ patch q, ofProperties p = .obj patch ∧ propertyFailures patch = [] ∧
      propertyChanges patch = q.map (fun entry => (entry.1, some entry.2)) ∧
      SameEntries q p := by
  refine ⟨p.map fun entry => (entry.1, ofProperty entry.2), ?_⟩
  induction p with
  | nil => exact ⟨[], rfl, rfl, rfl, .nil⟩
  | cons entry p ih =>
      obtain ⟨key, v⟩ := entry
      obtain ⟨hentry, hrest⟩ := List.forall_mem_cons.mp h
      obtain ⟨w, hread, hequal⟩ := propertyChange_ofProperty hentry
      obtain ⟨q, -, hfailures, hchanges, hq⟩ := ih hrest
      refine ⟨(key, w) :: q, rfl, ?_, ?_, .cons ⟨rfl, hequal⟩ hq⟩
      · simpa [propertyFailures, hread] using hfailures
      · simpa [propertyChanges, hread] using hchanges

/-- Patches keep properties in the order of their keys. -/
theorem sorted_changeProperties {p : Properties} (h : Assoc.Sorted p)
    (changes : List (String × Option Property)) : Assoc.Sorted (changeProperties p changes) := by
  induction changes generalizing p with
  | nil => exact h
  | cons change changes ih =>
      obtain ⟨key, change⟩ := change
      cases change with
      | none => exact ih (Assoc.sorted_erase h key)
      | some value => exact ih (Assoc.sorted_insert h key value)

/-- Changes under the keys that are there replace the values in their places. -/
theorem changeProperties_append (done : Properties) {rest q : Properties}
    (h : Assoc.Sorted (done ++ rest))
    (hkeys : SameEntries q rest) :
    changeProperties (done ++ rest) (q.map fun entry => (entry.1, some entry.2)) =
      done ++ q := by
  -- `done` are the properties whose changes are made, all below the key of the next change
  induction hkeys generalizing done with
  | nil => rfl
  | @cons new old q rest hentry hrest ih =>
      obtain ⟨key, value⟩ := new
      obtain ⟨_, before⟩ := old
      obtain ⟨rfl, -⟩ := hentry
      obtain ⟨hdone, hsorted, hbefore⟩ := List.pairwise_append.mp h
      have hlt : ∀ entry ∈ done, entry.1 < key := fun entry hentry =>
        hbefore entry hentry _ List.mem_cons_self
      have hinsert := Assoc.insert_middle hlt before value rest
      have hnext : Assoc.Sorted ((done ++ [(key, value)]) ++ rest) := by
        rw [List.append_assoc, List.singleton_append, ← hinsert]
        exact Assoc.sorted_insert h key value
      have htail := ih _ hnext
      simp only [List.append_assoc, List.singleton_append] at htail
      rw [← htail, ← hinsert]
      rfl

end Patches

section Writers

theorem put_eq (hactive : t.isActive e = true) (hc : c.affectsSelection = false)
    (value : c.Value) : put t c e value [] = ⟨t.put c e (some value), [], true⟩ := by
  simp [put, Store.insert, hactive, Store.bumpFor_of_not_affects hc]

/-- What a field of one component may do when the component stays equal. -/
structure Rewrites (c : Component) (e : Nat) (t : Store) (w : FieldOutcome) : Prop where
  failures : w.failures = []
  revision : w.store.revision = t.revision
  active : w.store.isActive e = true
  others : ∀ d, d ≠ c → w.store.get? d e = t.get? d e
  same : (w.store.get? c e == t.get? c e) = true

theorem rewrites_put (hactive : t.isActive e = true) {v w : c.Value}
    (hget : t.get? c e = some v) (h : (w == v) = true) :
    Rewrites c e t ⟨t.put c e (some w), [], true⟩ where
  failures := rfl
  revision := rfl
  active := (Store.isActive_put t c e _ e).trans hactive
  others d hd := Store.get?_put_of_ne hd.symm t e _ e
  same := by
    rw [Store.get?_put_self hactive, hget]
    exact h

theorem rewrites_skip (hactive : t.isActive e = true) {v : c.Value}
    (hget : t.get? c e = some v) (h : (v == v) = true) : Rewrites c e t ⟨t, [], true⟩ where
  failures := rfl
  revision := rfl
  active := hactive
  others _ _ := rfl
  same := by
    rw [hget]
    exact h

theorem writeId_shown (hactive : t.isActive e = true) {name : String}
    (hget : t.get? .name e = some name) (hname : name ≠ "") :
    Rewrites .name e t (writeId t e (.str name)) := by
  rw [writeId, if_neg hname, if_pos hget]
  exact rewrites_skip hactive hget (beq_self_eq_true name)

/-- Tags that are new and distinct are added in their order. -/
theorem toTags_append (tags : List String) (given : Tags)
    (h : (given.toList ++ tags).Nodup) :
    toTags (tags.map .str) given = .ok ⟨given.toList ++ tags, h⟩ := by
  induction tags generalizing given with
  | nil => simp [toTags]
  | cons tag tags ih =>
      have hnew : tag ∉ given.toList := by
        intro hmem
        exact (List.nodup_append.mp h).2.2 tag hmem tag List.mem_cons_self rfl
      have hlist : (given.insert tag).toList = given.toList ++ [tag] := by
        rw [Tags.insert, Tags.add, dif_neg hnew]
      have hnext : ((given.insert tag).toList ++ tags).Nodup := by
        rwa [hlist, List.append_assoc, List.singleton_append]
      rw [List.map_cons, toTags, ih _ hnext]
      simp [hlist]

theorem writeTags_shown (hactive : t.isActive e = true) {tags : Tags}
    (hget : t.get? .tags e = some tags) :
    Rewrites .tags e t (writeTags t e (.ofStrings tags.toList)) := by
  have hread : toTags (tags.toList.map .str) .empty = .ok tags :=
    toTags_append tags.toList .empty tags.nodup
  simp only [writeTags, Json.ofStrings, hread]
  rw [if_pos hget]
  exact rewrites_skip hactive hget (beq_self_eq_true tags)

theorem writeParent_shown (hactive : t.isActive e = true) {parent : Selector}
    (hget : t.get? .parent e = some parent) (hparent : ∃ text, Selector.read text = .ok parent) :
    Rewrites .parent e t (writeParent t e (.str parent.text)) := by
  obtain ⟨text, hread⟩ := hparent
  have hagain := Selector.read_text_of_canonical (Selector.canonical_of_read hread)
  simp only [writeParent, hagain]
  rw [put_eq hactive rfl]
  exact rewrites_put hactive hget (beq_self_eq_true parent)

theorem writeTransform_shown (hactive : t.isActive e = true) {transform : Transform}
    (hget : t.get? .transform e = some transform) (hfinite : transform.isFinite = true) :
    Rewrites .transform e t (writeTransform t e (ofTransform transform)) := by
  obtain ⟨patch, u, hshown, hpatch, hequal⟩ := patchTransform_ofTransform hfinite
  simp only [writeTransform, hshown, hget, Option.getD_some, hpatch, if_true]
  rw [List.reverse_nil, put_eq hactive rfl]
  exact rewrites_put hactive hget hequal

theorem writeFlex_shown (hactive : t.isActive e = true) {style : FlexStyle}
    (hget : t.get? .flex e = some style) (hfinite : style.isFinite = true) :
    Rewrites .flex e t (writeFlex t e (ofFlex style)) := by
  have hself := FlexStyle.beq_self hfinite
  have hstart : Unchanged style { value := style } := ⟨rfl, FlexStyle.beq_iff.mp hself⟩
  have hpatch := unchanged_foldl hfinite FlexAttribute.all hstart
  simp only [writeFlex, ofFlex, hget, Option.getD_some, patchFlex_eq]
  -- of the patched style only that it equals the old one matters
  generalize List.foldl _ _ _ = p at hpatch ⊢
  rw [hpatch.failures, List.reverse_nil]
  split
  · rw [put_eq hactive rfl]
    exact rewrites_put hactive hget (FlexStyle.beq_iff.mpr hpatch.same)
  · exact rewrites_skip hactive hget hself

theorem writeProperties_shown (hactive : t.isActive e = true) {properties : Properties}
    (hget : t.get? .properties e = some properties) (hsorted : Assoc.Sorted properties)
    (hfinite : ∀ entry ∈ properties, entry.2.isFinite = true) :
    Rewrites .properties e t (writeProperties t e (ofProperties properties)) := by
  obtain ⟨patch, q, hshown, hfailures, hchanges, hkeys⟩ := propertyChanges_ofProperties hfinite
  have hchanged : changeProperties properties (propertyChanges patch) = q := by
    rw [hchanges]
    exact changeProperties_append [] hsorted hkeys
  have hslot : (t.slot e).components.get .properties = some properties := by
    rwa [Store.get?, hactive, if_pos rfl] at hget
  have haccess : t.access .properties e = (t, some properties) := by
    rw [Store.access, hactive, if_pos rfl, hslot, Store.bumpFor_of_not_affects rfl]
  have hobtain : t.getOrInsert .properties e [] = (t, .ok properties) := by
    simp [Store.getOrInsert, hactive, Store.has, hget, haccess]
  have hrewrites := rewrites_put hactive hget hkeys.beq
  simp only [writeProperties, hshown, hobtain, hfailures, hchanged, Store.modify, haccess]
  split
  · exact hrewrites
  · exact hrewrites

/-- What the field of one component does.  The layout is shown but never written. -/
theorem writeField_shown (hactive : t.isActive e = true) {v : c.Value}
    (hget : t.get? c e = some v) (hv : c.Restorable v) {value : Json}
    (hshown : shown c v = some value) {w : FieldOutcome}
    (hw : writeField t e (key c) value = some w) : Rewrites c e t w := by
  cases c with
  | name =>
      obtain rfl := Option.some.inj hshown
      obtain rfl := Option.some.inj hw
      exact writeId_shown hactive hget hv
  | tags =>
      obtain rfl := Option.some.inj hshown
      obtain rfl := Option.some.inj hw
      exact writeTags_shown hactive hget
  | transform =>
      obtain rfl := Option.some.inj hshown
      obtain rfl := Option.some.inj hw
      exact writeTransform_shown hactive hget hv
  | properties =>
      obtain rfl := Option.some.inj hshown
      obtain rfl := Option.some.inj hw
      exact writeProperties_shown hactive hget hv.1 hv.2
  | parent =>
      obtain rfl := Option.some.inj hshown
      obtain rfl := Option.some.inj hw
      exact writeParent_shown hactive hget hv
  | flex =>
      obtain rfl := Option.some.inj hw
      rw [shown] at hshown
      split at hshown
      · nomatch hshown
      · obtain rfl := Option.some.inj hshown
        exact writeFlex_shown hactive hget hv
  | layout => nomatch hw

/-- A value that no field writes is equal to itself. -/
theorem beq_self_of_not_written {v : c.Value} (hv : c.Restorable v)
    (h : ∀ value, shown c v = some value → writeField t e (key c) value = none) :
    (v == v) = true := by
  cases c with
  | name => exact beq_self_eq_true (v : String)
  | tags => exact beq_self_eq_true (v : Tags)
  | parent => exact beq_self_eq_true (v : Selector)
  | transform => nomatch h _ rfl
  | properties => nomatch h _ rfl
  | flex => exact FlexStyle.beq_self hv
  | layout => exact Layout.beq_self hv

/-- So is a component that is absent or that no field writes. -/
theorem same_of_not_written (hrestorable : ∀ v, s.get? c e = some v → c.Restorable v)
    (h : ∀ value, (s.get? c e).bind (shown c) = some value →
      writeField t e (key c) value = none) : (s.get? c e == s.get? c e) = true := by
  cases hv : s.get? c e with
  | none => rfl
  | some v =>
      rw [hv] at h
      exact beq_self_of_not_written (hrestorable v hv) h

end Writers

section Runs

/-- A store in which the fields of an entity are written but for those of some components. -/
structure Kept (e : Nat) (s : Store) (cs : List Component) (t : Store) : Prop where
  active : t.isActive e = true
  revision : t.revision = s.revision
  left : ∀ c ∈ cs, t.get? c e = s.get? c e
  written : ∀ c, c ∉ cs → (t.get? c e == s.get? c e) = true

variable {cs : List Component}

/-- A component without a field is as it was. -/
theorem kept_skip (h : Kept e s (c :: cs) t) (hsame : (s.get? c e == s.get? c e) = true) :
    Kept e s cs t where
  active := h.active
  revision := h.revision
  left d hd := h.left d (List.mem_cons_of_mem c hd)
  written d hd := by
    by_cases hdc : d = c
    · subst hdc
      rw [h.left d List.mem_cons_self]
      exact hsame
    · exact h.written d fun hmem => hd (List.mem_of_ne_of_mem hdc hmem)

/-- A field that keeps its component equal leaves the others for later. -/
theorem kept_step (h : Kept e s (c :: cs) t) (hnew : c ∉ cs) {w : FieldOutcome}
    (hw : Rewrites c e t w) : Kept e s cs w.store where
  active := hw.active
  revision := hw.revision.trans h.revision
  left d hd := by
    have hdc : d ≠ c := fun heq => hnew (heq ▸ hd)
    rw [hw.others d hdc]
    exact h.left d (List.mem_cons_of_mem c hd)
  written d hd := by
    by_cases hdc : d = c
    · subst hdc
      have hsame := hw.same
      rwa [h.left d List.mem_cons_self] at hsame
    · rw [hw.others d hdc]
      exact h.written d fun hmem => hd (List.mem_of_ne_of_mem hdc hmem)

/-- The fields of all components, one after another. -/
theorem kept_writeFields (hnodup : cs.Nodup)
    (hrestorable : ∀ c v, s.get? c e = some v → c.Restorable v) {components : Components}
    (hcomponents : ∀ c, components.get c = s.get? c e) (h : Kept e s cs t) :
    (writeFields t e (fieldsOf components cs)).failures = [] ∧
      Kept e s [] (writeFields t e (fieldsOf components cs)).store := by
  induction cs generalizing t with
  | nil => exact ⟨rfl, h⟩
  | cons c cs ih =>
      obtain ⟨hnew, hrest⟩ := List.nodup_cons.mp hnodup
      have hsame := same_of_not_written (t := t) (hrestorable c)
      cases hfield : (s.get? c e).bind (shown c) with
      | none =>
          rw [fieldsOf_cons_of_none (by rw [hcomponents, hfield])]
          exact ih hrest (kept_skip h (hsame (by simp [hfield])))
      | some value =>
          rw [fieldsOf_cons_of_some (by rw [hcomponents, hfield]), writeFields]
          cases hw : writeField t e (key c) value with
          | none =>
              -- a field that is shown but not known to the writer
              exact ih hrest (kept_skip h (hsame (by simp [hfield, hw])))
          | some w =>
              obtain ⟨v, hv, hshown⟩ := Option.bind_eq_some_iff.mp hfield
              have hget : t.get? c e = some v := (h.left c List.mem_cons_self).trans hv
              have hrewrites := writeField_shown h.active hget (hrestorable c v hv) hshown hw
              obtain ⟨hfailures, hkept⟩ := ih hrest (kept_step h hnew hrewrites)
              refine ⟨?_, hkept⟩
              simp only [hrewrites.failures, hfailures, List.append_nil]

/-- **The document of an entity, written back.**  It is accepted without a failure, every
component of the entity stays present and equal, other entities and the revision stay as they
are. -/
theorem write_read (hactive : s.isActive e = true)
    (hrestorable : ∀ c v, s.get? c e = some v → c.Restorable v) :
    ∃ document o, read? s e = some document ∧ write document e s = .ok o ∧ o.failures = [] ∧
      o.store.revision = s.revision ∧ (∀ c, (o.store.get? c e == s.get? c e) = true) ∧
      SameElsewhere e s o.store := by
  have hcomponents (c : Component) : (s.slot e).components.get c = s.get? c e := by
    rw [Store.get?, hactive, if_pos rfl]
  have hstart : Kept e s inKeyOrder s := by
    refine ⟨hactive, rfl, fun _ _ => rfl, fun c hc => absurd ?_ hc⟩
    cases c <;> decide
  obtain ⟨hfailures, hkept⟩ :=
    kept_writeFields (by decide) hrestorable hcomponents hstart
  have hread : read? s e = some (.obj (members s e)) := if_pos hactive
  have hmembers : members s e =
      ("_index", .ofNat e) :: fieldsOf (s.slot e).components inKeyOrder := by
    rw [members, if_pos hactive, ofComponents_eq]
  have hwrite : write (.obj (members s e)) e s =
      .ok (writeFields s e (fieldsOf (s.slot e).components inKeyOrder)) := by
    rw [write, if_pos hactive, hmembers]
    rfl
  exact ⟨_, _, hread, hwrite, hfailures, hkept.revision, fun c => hkept.written c (by simp),
    sameElsewhere_write hwrite⟩

/-- A store with one entity that has every component. -/
def furnished : Store :=
  ((Store.new 1 0).activate .global).1.setSlot 0
    { active := true
      components :=
        { name := some "door"
          tags := some (.insert .empty "wooden")
          transform := some {}
          properties := some [("locked", .bool true), ("width", .number 2)]
          parent := some (.atom (.tag "room"))
          flex := some { FlexStyle.empty with direction := some .row, grow := some 1 }
          layout := some {} } }

theorem restorable_furnished (c : Component) (v : c.Value)
    (h : furnished.get? c 0 = some v) : c.Restorable v := by
  cases c with
  | name =>
      obtain rfl : "door" = v := Option.some.inj h
      change "door" ≠ ""
      decide
  | tags => exact trivial
  | transform =>
      obtain rfl : ({} : Transform) = v := Option.some.inj h
      change Transform.isFinite {} = true
      decide +kernel
  | properties =>
      obtain rfl : [("locked", Property.bool true), ("width", .number 2)] = v := Option.some.inj h
      change List.Pairwise _ _ ∧ ∀ entry ∈ _, _
      decide +kernel
  | parent =>
      obtain rfl : Selector.atom (.tag "room") = v := Option.some.inj h
      have hletters : ∀ c ∈ "room".toList, c.isAlphanum = true := by simp
      have hnamed : (Atom.tag "room").Named := by
        refine ⟨by decide, fun c hc => ?_⟩
        simp [Selector.isIdentifier, Text.isAlphanumeric_of_isAlphanum (hletters c hc)]
      exact ⟨_, Selector.read_text_of_canonical (.chain (.atom hnamed))⟩
  | flex =>
      obtain rfl : { FlexStyle.empty with direction := some .row, grow := some 1 } = v :=
        Option.some.inj h
      change FlexStyle.isFinite _ = true
      decide +kernel
  | layout =>
      obtain rfl : ({} : Layout) = v := Option.some.inj h
      change Layout.isFinite {} = true
      decide +kernel

theorem write_read_furnished :
    furnished.isActive 0 = true ∧ ∃ document o, read? furnished 0 = some document ∧
      write document 0 furnished = .ok o ∧ o.failures = [] ∧
      o.store.revision = furnished.revision ∧
      (∀ c, (o.store.get? c 0 == furnished.get? c 0) = true) ∧
      SameElsewhere 0 furnished o.store :=
  ⟨by decide, write_read (by decide) restorable_furnished⟩

end Runs

end Document
end EntityRules
