import EntityRules.Proofs.Rule.Untouched
import EntityRules.Proofs.Text.Dots

/-!
# Assignments

An assignment walks from the root of a document along the steps of a path.  It makes an object of
what is missing or null on its way, and it is blocked by any other value that is no object.  The
walk changes the document as it goes, so that it is not plain to see that one which is blocked has
not changed anything yet.

**Results.**
* `assignWithin_eq`: an assignment that works in place has the outcome of `Target.assign`.
* `assign_error_iff`: the documents in which a path is blocked.
* `at?_assignAt`, `walk?_assignAt`: what stands at the path afterwards, and what stands elsewhere.
* `Target.assign_reaches_only`: all of it for the assignment to a path.
-/

namespace EntityRules

/-! ## Places in documents -/

namespace Json

variable {document node : Json} {path rest : List String} {step : String}

/-- Gives an object a member. -/
def setMember (name : String) (value : Json) : Json → Json
  | .obj fields => .obj (Assoc.insert name value fields)
  | other => other

/-- Changes what stands at the end of a path of keys, if anything does. -/
def modifyAt (change : Json → Json) : List String → Json → Json
  | [], document => change document
  | step :: rest, .obj fields =>
    match Assoc.find? step fields with
    | some child => .obj (Assoc.insert step (modifyAt change rest child) fields)
    | none => .obj fields
  | _ :: _, other => other

section Reading

@[simp] theorem at?_nil (document : Json) : document.at? [] = some document := rfl

theorem at?_cons (document : Json) (step : String) (rest : List String) :
    document.at? (step :: rest) = (document.get? step).bind fun child => child.at? rest :=
  List.foldlM_cons

theorem at?_append (document : Json) (path rest : List String) :
    document.at? (path ++ rest) = (document.at? path).bind fun node => node.at? rest :=
  List.foldlM_append

theorem walk?_obj (fields : Fields) (step : String) (rest : List String) :
    (Json.obj fields).walk? (step :: rest) =
      (Assoc.find? step fields).bind fun child => child.walk? rest := by
  simp only [walk?, child?]
  cases Assoc.find? step fields with
  | none => rfl
  | some child => rfl

/-- What is reached by keys alone is reached. -/
theorem walk?_of_at? (h : document.at? path = some node) : document.walk? path = some node := by
  induction path generalizing document with
  | nil => exact h
  | cons step rest ih =>
      rw [at?_cons] at h
      obtain ⟨child, hchild, hrest⟩ := Option.bind_eq_some_iff.mp h
      cases document with
      | null | bool | num | str | arr => cases hchild
      | obj fields =>
          have hfind : Assoc.find? step fields = some child := hchild
          rw [walk?_obj, hfind, Option.bind_some]
          exact ih hrest

end Reading

section Changes

variable {change other : Json → Json} {fields : Fields}

theorem modifyAt_cons_of_find? {child : Json} (h : Assoc.find? step fields = some child)
    (change : Json → Json) (rest : List String) :
    (Json.obj fields).modifyAt change (step :: rest) =
      .obj (Assoc.insert step (child.modifyAt change rest) fields) := by
  rw [modifyAt, h]

/-- A change is seen at its place. -/
theorem at?_modifyAt (h : document.at? path = some node) :
    (document.modifyAt change path).at? path = some (change node) := by
  induction path generalizing document with
  | nil =>
      obtain rfl := Option.some.inj h
      rfl
  | cons step rest ih =>
      rw [at?_cons] at h
      obtain ⟨child, hchild, hrest⟩ := Option.bind_eq_some_iff.mp h
      cases document with
      | null | bool | num | str | arr => cases hchild
      | obj fields =>
          rw [modifyAt_cons_of_find? hchild, at?_cons, get?, Assoc.find?_insert_self]
          exact ih hrest

/-- A change of a part of what stands at a place. -/
theorem modifyAt_append (h : document.at? path = some node) :
    document.modifyAt change (path ++ rest) =
      document.modifyAt (fun _ => node.modifyAt change rest) path := by
  induction path generalizing document with
  | nil =>
      obtain rfl := Option.some.inj h
      rfl
  | cons step rest ih =>
      rw [at?_cons] at h
      obtain ⟨child, hchild, hrest⟩ := Option.bind_eq_some_iff.mp h
      cases document with
      | null | bool | num | str | arr => cases hchild
      | obj fields =>
          rw [List.cons_append, modifyAt_cons_of_find? hchild, modifyAt_cons_of_find? hchild,
            ih hrest]

theorem modifyAt_eq (h : document.at? path = some node) :
    document.modifyAt change path = document.modifyAt (fun _ => change node) path := by
  have hchange : document.modifyAt change (path ++ []) =
      document.modifyAt (fun _ => node.modifyAt change []) path := modifyAt_append h
  rwa [List.append_nil] at hchange

/-- The later of two changes at one place is the one that counts, if it asks for nothing. -/
theorem modifyAt_modifyAt (value : Json) :
    (document.modifyAt change path).modifyAt (fun _ => value) path =
      document.modifyAt (fun _ => value) path := by
  induction path generalizing document with
  | nil => rfl
  | cons step rest ih =>
      cases document with
      | null | bool | num | str | arr => rfl
      | obj fields =>
          cases hfind : Assoc.find? step fields with
          | none => simp only [modifyAt, hfind]
          | some child =>
              rw [modifyAt_cons_of_find? hfind, modifyAt_cons_of_find? hfind,
                modifyAt_cons_of_find? (Assoc.find?_insert_self _ _ _), ih,
                Assoc.insert_insert]

end Changes

end Json

/-! ## Assignments in place -/

namespace Target

variable {document document' value : Json} {leaf : String} {steps path : List String}

/-- The walk of an assignment from a place in a document that it changes as it goes: what is missing
or null under the next step becomes an empty object before it is entered.  Gives the document as the
walk leaves it, and what blocked the walk, if anything did. -/
def walkFrom (leaf : String) (value : Json) :
    List String → List String → Json → Json × Option Blocked
  | [], place, whole =>
    match whole.at? place with
    | some (.obj _) => (whole.modifyAt (Json.setMember leaf value) place, none)
    | _ => (whole, some ⟨leaf⟩)
  | step :: rest, place, whole =>
    match whole.at? place with
    | some (.obj fields) =>
      let entered := match Assoc.find? step fields with
        | none => whole.modifyAt (Json.setMember step (.obj [])) place
        | some .null => whole.modifyAt (Json.setMember step (.obj [])) place
        | some _ => whole
      walkFrom leaf value rest (place ++ [step]) entered
    | _ => (whole, some ⟨step⟩)

/-- Puts a value at the place that a path names in the document at some place of a whole, which is
changed as the walk goes. -/
def assignWithin (p : Target) (place : List String) (whole value : Json) : Json × Option Blocked :=
  walkFrom p.leaf value p.steps place whole

/-- The member under a step is entered as it is, or else it is missing or null. -/
theorem childOrEmpty_cases (fields : Fields) (step : String) :
    (childOrEmpty fields step = .obj [] ∧
      (Assoc.find? step fields = none ∨ Assoc.find? step fields = some .null)) ∨
    ∃ child, Assoc.find? step fields = some child ∧ child ≠ .null ∧
      childOrEmpty fields step = child := by
  cases hfind : Assoc.find? step fields with
  | none => exact Or.inl ⟨by rw [childOrEmpty, hfind], Or.inl rfl⟩
  | some child =>
      cases child with
      | null => exact Or.inl ⟨by rw [childOrEmpty, hfind], Or.inr rfl⟩
      | bool | num | str | arr | obj =>
          refine Or.inr ⟨_, rfl, ?_, by rw [childOrEmpty, hfind]⟩
          rintro ⟨⟩

/-- No walk is blocked in an empty object. -/
theorem assignAt_empty (leaf : String) (value : Json) (steps : List String) :
    ∃ document', assignAt leaf value steps (.obj []) = .ok document' := by
  induction steps with
  | nil => exact ⟨_, rfl⟩
  | cons step rest ih =>
      obtain ⟨child, hchild⟩ := ih
      refine ⟨.obj [(step, child)], ?_⟩
      have hempty : childOrEmpty [] step = .obj [] := rfl
      rw [assignAt, hempty, hchild]
      rfl

/-- **An assignment in place.**  It leaves in the whole what `assignAt` gives for the document, and
one that is blocked has changed nothing. -/
theorem walkFrom_eq {place : List String} {whole : Json} (h : whole.at? place = some document) :
    walkFrom leaf value steps place whole =
      match assignAt leaf value steps document with
      | .ok document' => (whole.modifyAt (fun _ => document') place, none)
      | .error blocked => (whole, some blocked) := by
  -- the walk goes on from the member that it enters, in the whole that it has made so far
  induction steps generalizing place whole document with
  | nil =>
      cases document with
      | null | bool | num | str | arr => simp only [walkFrom, h, assignAt]
      | obj fields => simp only [walkFrom, h, assignAt, Json.modifyAt_eq h, Json.setMember]
  | cons step rest ih =>
      cases document with
      | null | bool | num | str | arr => simp only [walkFrom, h, assignAt]
      | obj fields =>
          rw [assignAt]
          rcases childOrEmpty_cases fields step with ⟨hempty, hfind⟩ | ⟨child, hfind, hnull, hchild⟩
          · -- the walk enters an object that it has made, where nothing can block it
            have hentered : walkFrom leaf value (step :: rest) place whole =
                walkFrom leaf value rest (place ++ [step])
                  (whole.modifyAt (Json.setMember step (.obj [])) place) := by
              rcases hfind with hfind | hfind <;> simp only [walkFrom, h, hfind]
            have hplace : (whole.modifyAt (Json.setMember step (.obj [])) place).at? place =
                some (.obj (Assoc.insert step (.obj []) fields)) := Json.at?_modifyAt h
            have hstep : (whole.modifyAt (Json.setMember step (.obj [])) place).at?
                (place ++ [step]) = some (.obj []) := by
              rw [Json.at?_append, hplace, Option.bind_some, Json.at?_cons, Json.get?,
                Assoc.find?_insert_self]
              rfl
            obtain ⟨made, hmade⟩ := assignAt_empty leaf value rest
            rw [hentered, ih hstep, hempty, hmade]
            simp only [Except.map]
            rw [Json.modifyAt_append hplace,
              Json.modifyAt_cons_of_find? (Assoc.find?_insert_self _ _ _), Assoc.insert_insert,
              Json.modifyAt_modifyAt]
            rfl
          · have hentered : walkFrom leaf value (step :: rest) place whole =
                walkFrom leaf value rest (place ++ [step]) whole := by
              cases child with
              | null => exact absurd rfl hnull
              | bool | num | str | arr | obj => simp only [walkFrom, h, hfind]
            have hstep : whole.at? (place ++ [step]) = some child := by
              rw [Json.at?_append, h, Option.bind_some, Json.at?_cons, Json.get?, hfind]
              rfl
            rw [hentered, ih hstep, hchild]
            cases hinner : assignAt leaf value rest child with
            | error blocked => rfl
            | ok made =>
                simp only [Except.map]
                rw [Json.modifyAt_append h, Json.modifyAt_cons_of_find? hfind]
                rfl

/-! ## The path in the document -/

/-- Whether the way along some steps leads into a value that is no object: the document itself, or
what stands at the end of some of the steps and is not null. -/
def Obstructed (steps : List String) (document : Json) : Prop :=
  document.fields? = none ∨ ∃ above node, above <+: steps ∧
    document.at? above = some node ∧ node ≠ .null ∧ node.fields? = none

theorem not_obstructed_empty (steps : List String) : ¬Obstructed steps (.obj []) := by
  rintro (⟨⟨⟩⟩ | ⟨above, node, -, hat, -, hnode⟩)
  cases above with
  | nil =>
      obtain rfl := Option.some.inj hat
      cases hnode
  | cons step rest => cases hat

/-- The way through an object goes on in the member that is entered. -/
theorem obstructed_cons_iff {fields : Fields} {step : String} {rest : List String} :
    Obstructed (step :: rest) (.obj fields) ↔ Obstructed rest (childOrEmpty fields step) := by
  constructor
  · rintro (⟨⟨⟩⟩ | ⟨above, node, hsteps, hat, hnull, hnode⟩)
    cases above with
    | nil =>
        obtain rfl := Option.some.inj hat
        cases hnode
    | cons first above =>
        obtain ⟨rfl, hrest⟩ := List.cons_prefix_cons.mp hsteps
        rw [Json.at?_cons] at hat
        obtain ⟨child, hchild, hat⟩ := Option.bind_eq_some_iff.mp hat
        have hentered : childOrEmpty fields first = child := by
          rcases childOrEmpty_cases fields first with ⟨-, hfind⟩ | ⟨other, hfind, -, hentered⟩
          · -- nothing but null stands in a null
            obtain rfl : child = .null := by
              rcases hfind with hfind | hfind <;> simp_all [Json.get?]
            cases above with
            | nil => exact absurd (Option.some.inj hat).symm hnull
            | cons => cases hat
          · rw [hentered]
            exact Option.some.inj (hfind.symm.trans hchild)
        rw [hentered]
        exact Or.inr ⟨above, node, hrest, hat, hnull, hnode⟩
  · intro h
    rcases childOrEmpty_cases fields step with ⟨hempty, -⟩ | ⟨child, hfind, hnull, hchild⟩
    · rw [hempty] at h
      exact absurd h (not_obstructed_empty rest)
    · have hat (above : List String) : (Json.obj fields).at? (step :: above) = child.at? above := by
        rw [Json.at?_cons, Json.get?, hfind, Option.bind_some]
      rw [hchild] at h
      rcases h with hnode | ⟨above, node, hsteps, hnode⟩
      · exact Or.inr ⟨[step], child, ⟨rest, rfl⟩, hat [], hnull, hnode⟩
      · exact Or.inr ⟨step :: above, node, List.cons_prefix_cons.mpr ⟨rfl, hsteps⟩,
          (hat above).symm ▸ hnode⟩

theorem map_eq_error_iff {α β ε : Type} {f : α → β} {result : Except ε α} :
    (∃ e, result.map f = .error e) ↔ ∃ e, result = .error e := by
  cases result with
  | error e => exact iff_of_true ⟨e, rfl⟩ ⟨e, rfl⟩
  | ok a =>
      refine iff_of_false ?_ ?_
      · rintro ⟨_, ⟨⟩⟩
      · rintro ⟨_, ⟨⟩⟩

theorem assignAt_error_iff :
    (∃ blocked, assignAt leaf value steps document = .error blocked) ↔
      Obstructed steps document := by
  induction steps generalizing document with
  | nil =>
      cases document with
      | null | bool | num | str | arr => exact iff_of_true ⟨_, rfl⟩ (Or.inl rfl)
      | obj fields =>
          refine iff_of_false ?_ ?_
          · rintro ⟨blocked, ⟨⟩⟩
          · rintro (⟨⟨⟩⟩ | ⟨above, node, hsteps, hat, -, hnode⟩)
            obtain rfl := List.prefix_nil.mp hsteps
            obtain rfl := Option.some.inj hat
            cases hnode
  | cons step rest ih =>
      cases document with
      | null | bool | num | str | arr => exact iff_of_true ⟨_, rfl⟩ (Or.inl rfl)
      | obj fields => rw [assignAt, map_eq_error_iff, ih, obstructed_cons_iff]

/-- The value stands at the end of the path. -/
theorem at?_assignAt (h : assignAt leaf value steps document = .ok document') :
    document'.at? (steps ++ [leaf]) = some value := by
  induction steps generalizing document document' with
  | nil =>
      cases document with
      | null | bool | num | str | arr => cases h
      | obj fields =>
          obtain rfl := Except.ok.inj h
          rw [List.nil_append, Json.at?_cons, Json.get?, Assoc.find?_insert_self]
          rfl
  | cons step rest ih =>
      cases document with
      | null | bool | num | str | arr => cases h
      | obj fields =>
          obtain ⟨child, rfl, hchild⟩ := assignAt_cases h
          rw [List.cons_append, Json.at?_cons, Json.get?, List.headD_cons,
            Assoc.find?_insert_self]
          exact ih (hchild step rest rfl)

/-- What is read at a place that the path does not bear on is read there as before. -/
theorem walk?_assignAt (h : assignAt leaf value steps document = .ok document')
    (hbelow : ¬steps ++ [leaf] <+: path) (habove : ¬path <+: steps ++ [leaf]) :
    document'.walk? path = document.walk? path := by
  cases path with
  | nil => exact absurd List.nil_prefix habove
  | cons first path =>
      induction steps generalizing document document' first path with
      | nil =>
          cases document with
          | null | bool | num | str | arr => cases h
          | obj fields =>
              obtain rfl := Except.ok.inj h
              have hne : first ≠ leaf := by
                rintro rfl
                exact hbelow ⟨path, rfl⟩
              simp only [Json.walk?, Json.child?, Assoc.find?_insert_of_ne hne]
      | cons step rest ih =>
          cases document with
          | null | bool | num | str | arr => cases h
          | obj fields =>
              obtain ⟨child, rfl, hchild⟩ := assignAt_cases h
              by_cases hfirst : first = step
              · subst hfirst
                have hbelow' : ¬rest ++ [leaf] <+: path := fun hp =>
                  hbelow (List.cons_prefix_cons.mpr ⟨rfl, hp⟩)
                have habove' : ¬path <+: rest ++ [leaf] := fun hp =>
                  habove (List.cons_prefix_cons.mpr ⟨rfl, hp⟩)
                cases path with
                | nil => exact absurd List.nil_prefix habove'
                | cons second path =>
                    have hinner := ih (hchild first rest rfl) second path hbelow' habove'
                    rw [List.headD_cons, Json.walk?_obj, Assoc.find?_insert_self, Option.bind_some,
                      hinner, Json.walk?_obj]
                    rcases childOrEmpty_cases fields first with
                      ⟨hempty, hfind⟩ | ⟨other, hfind, -, hother⟩
                    · rw [hempty]
                      rcases hfind with hfind | hfind <;> rw [hfind] <;> rfl
                    · rw [hother, hfind, Option.bind_some]
              · rw [List.headD_cons, Json.walk?_obj, Json.walk?_obj,
                  Assoc.find?_insert_of_ne hfirst]

/-! ## Assignments to paths -/

section Paths

variable {p : Target}

theorem assign_error_iff :
    (∃ blocked, p.assign document value = .error blocked) ↔
      document.fields? = none ∨ ∃ above node, above <+: p.segments ∧ above ≠ p.segments ∧
        document.at? above = some node ∧ node ≠ .null ∧ node.fields? = none := by
  refine assignAt_error_iff.trans (or_congr_right (exists_congr fun above =>
    exists_congr fun node => ?_))
  -- the proper prefixes of a path are those of its steps
  have hproper : above <+: p.steps ↔ above <+: p.segments ∧ above ≠ p.segments := by
    constructor
    · intro hsteps
      refine ⟨hsteps.trans (List.prefix_append _ _), ?_⟩
      rintro rfl
      have hlength := hsteps.length_le
      simp [segments] at hlength
    · rintro ⟨hsteps, hne⟩
      exact (List.prefix_concat_iff.mp hsteps).resolve_left hne
  rw [hproper, and_assoc]

/-- Segments without dots are read off the text of their path. -/
theorem splitAtDots_text (hdots : ∀ segment ∈ p.segments, '.' ∉ segment.toList) :
    splitAtDots p.text = p.segments := by
  have hne : p.segments ≠ [] := List.concat_ne_nil p.leaf p.steps
  exact splitAtDots_intercalate hne hdots

theorem lookup_text (hdots : ∀ segment ∈ p.segments, '.' ∉ segment.toList) (document : Json) :
    document.lookup p.text = document.walk? p.segments := by
  have hsegments := splitAtDots_text hdots
  have hne : p.text ≠ "" := by
    intro hempty
    -- the segment of the empty text is empty, and the leaf is not
    rw [hempty] at hsegments
    have hleaf : p.leaf ∈ splitAtDots "" := hsegments ▸ List.mem_append_right _ List.mem_cons_self
    exact p.leaf_ne_empty (List.mem_singleton.mp hleaf)
  rw [Json.lookup, if_neg hne, hsegments]

theorem assignWithin_eq {place : List String} {whole : Json} (h : whole.at? place = some document) :
    p.assignWithin place whole value =
      match p.assign document value with
      | .ok document' => (whole.modifyAt (fun _ => document') place, none)
      | .error blocked => (whole, some blocked) :=
  walkFrom_eq h

/-- **What an assignment reaches.**  It is blocked just if the document is no object, or something
above the place that the path names is neither null nor an object; a walk that is blocked leaves the
document as it was.  Otherwise the value stands at the place, where the text of the path finds it if
the segments have no dots, and a place that is neither above nor below it reads as before. -/
theorem assign_reaches_only (p : Target) (document value : Json) :
    ((∃ blocked, p.assign document value = .error blocked) ↔
      document.fields? = none ∨ ∃ above node, above <+: p.segments ∧ above ≠ p.segments ∧
        document.at? above = some node ∧ node ≠ .null ∧ node.fields? = none) ∧
    (∀ blocked, p.assign document value = .error blocked →
      p.assignWithin [] document value = (document, some blocked)) ∧
    ∀ document', p.assign document value = .ok document' →
      p.assignWithin [] document value = (document', none) ∧
      document'.at? p.segments = some value ∧
      ((∀ segment ∈ p.segments, '.' ∉ segment.toList) →
        document'.lookup p.text = some value) ∧
      ∀ path, ¬p.Touches path → document'.walk? path = document.walk? path := by
  refine ⟨assign_error_iff, fun blocked hblocked => ?_, fun document' hassign => ?_⟩
  · rw [assignWithin_eq (Json.at?_nil document), hblocked]
  · have hvalue : document'.at? p.segments = some value := at?_assignAt hassign
    refine ⟨?_, hvalue, fun hdots => ?_, fun path hfree => ?_⟩
    · rw [assignWithin_eq (Json.at?_nil document), hassign]
      rfl
    · rw [lookup_text hdots]
      exact Json.walk?_of_at? hvalue
    · obtain ⟨hbelow, habove⟩ := not_or.mp hfree
      exact walk?_assignAt hassign hbelow habove

end Paths

end Target
end EntityRules
