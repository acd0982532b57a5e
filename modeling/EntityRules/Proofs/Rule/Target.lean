import EntityRules.Proofs.Rule.Command

/-!
# The documents that name targets

A target is written as objects of one member each, one inside the other, around a text that is not
empty; its segments are the keys from the outside in and then the text.  Keys may be empty.  Reading
takes exactly these documents, so a path and its document determine each other, and it stops at the
first value that does not fit.  An operation whose target is read has a first segment, which is the
field that it changes.

**Results.**
* `names_or_breaks`: every document names segments or has a value that does not fit.
* `names_iff`, `read_eq_error_iff`: which documents are read, and what stops the reading of others.
* `read_eq_ok_iff`: what is read is what `nest` makes.
* `collect_eq`: a reading that puts the segments into one list.
* `target_eq_error_iff`, `mem_changedFields_read`: the operations of a command.
* `Target.read_iff_names`: all of it.
-/

namespace EntityRules
namespace Target

/-- The documents that name segments. -/
inductive Names : Json → List String → Prop
  | leaf (text : String) (nonempty : text ≠ "") : Names (.str text) [text]
  | step (key : String) {rest : Json} {segments : List String} (inner : Names rest segments) :
      Names (.obj [(key, rest)]) (key :: segments)

/-- What does not fit in a document, at the end of objects of one member each: an empty text, an
object that has not one member, or a value that is neither a text nor an object. -/
inductive Breaks : Json → TargetFault → Prop
  | empty : Breaks (.str "") .emptySegment
  | members (fields : Fields) (several : fields.length ≠ 1) :
      Breaks (.obj fields) (.keyCount fields.length)
  | other (value : Json) (string : value.string? = none) (fields : value.fields? = none) :
      Breaks value (.notASegment value.text)
  | step (key : String) {rest : Json} {fault : TargetFault} (inner : Breaks rest fault) :
      Breaks (.obj [(key, rest)]) fault

/-- Nests segments as objects of one member each around the last of them. -/
def nested : List String → Json
  | [] => .obj []
  | [leaf] => .str leaf
  | step :: next :: rest => .obj [(step, nested (next :: rest))]

/-- Reads the path that a document names, and puts its segments at the end of those found so far. -/
def collect (found : List String) : Json → Except TargetFault (List String)
  | .str leaf => if leaf = "" then .error .emptySegment else .ok (found ++ [leaf])
  | .obj [(step, rest)] => collect (found ++ [step]) rest
  | .obj fields => .error (.keyCount fields.length)
  | other => .error (.notASegment other.text)

variable {document : Json} {segments : List String} {fault : TargetFault} {p : Target}

/-! ## Segments -/

section Segments

theorem segments_ne_nil (p : Target) : p.segments ≠ [] := List.concat_ne_nil p.leaf p.steps

theorem getElem?_zero_segments (p : Target) : p.segments[0]? = some p.root := by
  cases hsteps : p.steps with
  | nil => simp [segments, root, hsteps]
  | cons step rest => simp [segments, root, hsteps]

/-- Segments whose last is not empty are those of a path. -/
theorem exists_segments_eq (hne : segments ≠ []) (hlast : segments.getLast hne ≠ "") :
    ∃ p : Target, p.segments = segments :=
  ⟨⟨segments.dropLast, segments.getLast hne, hlast⟩, List.dropLast_concat_getLast hne⟩

theorem nested_cons (step : String) (hne : segments ≠ []) :
    nested (step :: segments) = .obj [(step, nested segments)] := by
  cases segments with
  | nil => exact absurd rfl hne
  | cons next rest => rfl

/-- A path is nested as its segments are. -/
theorem nested_segments (p : Target) : nested p.segments = p.nest := by
  obtain ⟨steps, leaf, nonempty⟩ := p
  induction steps with
  | nil => rfl
  | cons step rest ih =>
      have hcons : nested (step :: segments ⟨rest, leaf, nonempty⟩) =
          .obj [(step, nested (segments ⟨rest, leaf, nonempty⟩))] :=
        nested_cons step (segments_ne_nil _)
      rw [ih] at hcons
      exact hcons

theorem segments_injective {p q : Target} (h : p.segments = q.segments) : p = q := by
  obtain ⟨steps, leaf, nonempty⟩ := p
  obtain ⟨steps', leaf', nonempty'⟩ := q
  obtain ⟨rfl, hleaf⟩ := List.append_inj' h rfl
  obtain rfl := List.singleton_inj.mp hleaf
  rfl

theorem Names.ne_nil (h : Names document segments) : segments ≠ [] := by
  cases h with
  | leaf text nonempty => exact List.cons_ne_nil _ _
  | step key inner => exact List.cons_ne_nil _ _

/-- The segments determine the document that names them. -/
theorem Names.eq_nested (h : Names document segments) : document = nested segments := by
  induction h with
  | leaf text nonempty => rfl
  | step key inner ih => rw [nested_cons key inner.ne_nil, ← ih]

theorem names_nested (p : Target) : Names (nested p.segments) p.segments := by
  rw [nested_segments]
  obtain ⟨steps, leaf, nonempty⟩ := p
  induction steps with
  | nil => exact Names.leaf leaf nonempty
  | cons step rest ih => exact Names.step step ih

end Segments

/-! ## Reading -/

section Reading

theorem read_step (key : String) (rest : Json) :
    read (.obj [(key, rest)]) = (read rest).map (cons key) := rfl

theorem names_or_breaks (document : Json) :
    (∃ segments, Names document segments) ∨ ∃ fault, Breaks document fault := by
  induction document using read.induct with
  | case1 => exact Or.inr ⟨_, .empty⟩
  | case2 leaf nonempty => exact Or.inl ⟨_, .leaf leaf nonempty⟩
  | case3 key rest ih =>
      rcases ih with ⟨segments, hnames⟩ | ⟨fault, hbreaks⟩
      · exact Or.inl ⟨_, .step key hnames⟩
      · exact Or.inr ⟨_, .step key hbreaks⟩
  | case4 fields hfields =>
      refine Or.inr ⟨_, .members fields fun hone => ?_⟩
      obtain ⟨⟨key, rest⟩, hone⟩ := List.length_eq_one_iff.mp hone
      exact hfields key rest hone
  | case5 other hstr _ hobj =>
      cases other with
      | str leaf => exact (hstr leaf rfl).elim
      | obj fields => exact (hobj fields rfl).elim
      | null | bool | num | arr => exact Or.inr ⟨_, .other _ rfl rfl⟩

theorem Names.exists_read (h : Names document segments) :
    ∃ p, read document = .ok p ∧ p.segments = segments := by
  induction h with
  | leaf text nonempty => exact ⟨⟨[], text, nonempty⟩, dif_neg nonempty, rfl⟩
  | step key _ ih =>
      obtain ⟨p, hp, rfl⟩ := ih
      exact ⟨cons key p, by rw [read_step, hp]; rfl, rfl⟩

theorem Breaks.read_eq (h : Breaks document fault) : read document = .error fault := by
  induction h with
  | empty => rfl
  | members fields several =>
      match fields with
      | [] | _ :: _ :: _ => rfl
      | [_] => exact absurd rfl several
  | other value string fields =>
      cases value with
      | str leaf => cases string
      | obj fields => cases fields
      | null | bool | num | arr => rfl
  | step key _ ih =>
      rw [read_step, ih]
      rfl

/-- A document that is read names the segments of the path. -/
theorem names_of_read (h : read document = .ok p) : Names document p.segments := by
  rcases names_or_breaks document with ⟨segments, hnames⟩ | ⟨fault, hbreaks⟩
  · obtain ⟨q, hq, rfl⟩ := hnames.exists_read
    rw [h] at hq
    obtain rfl := Except.ok.inj hq
    exact hnames
  · rw [hbreaks.read_eq] at h
    cases h

/-- The documents that name segments are those that are read as a path with these segments. -/
theorem names_iff :
    Names document segments ↔ ∃ p, read document = .ok p ∧ p.segments = segments := by
  refine ⟨Names.exists_read, ?_⟩
  rintro ⟨p, hp, rfl⟩
  exact names_of_read hp

theorem read_eq_error_iff : read document = .error fault ↔ Breaks document fault := by
  refine ⟨fun h => ?_, Breaks.read_eq⟩
  rcases names_or_breaks document with ⟨segments, hnames⟩ | ⟨first, hbreaks⟩
  · obtain ⟨p, hp, _⟩ := hnames.exists_read
    rw [hp] at h
    cases h
  · rw [hbreaks.read_eq] at h
    exact Except.error.inj h ▸ hbreaks

/-- A path has one document, and no other document is read as it. -/
theorem read_eq_ok_iff : read document = .ok p ↔ document = p.nest := by
  constructor
  · intro h
    rw [← nested_segments]
    exact (names_of_read h).eq_nested
  · rintro rfl
    rw [← nested_segments]
    obtain ⟨q, hq, hsegments⟩ := (names_nested p).exists_read
    rw [hq, segments_injective hsegments]

/-- The segments come into the list in order, and what stops one reading stops the other. -/
theorem collect_eq (found : List String) (document : Json) :
    collect found document = (read document).map fun p => found ++ p.segments := by
  -- the induction is on the document as the reader goes through it, with more and more found
  induction document using read.induct generalizing found with
  | case1 => rfl
  | case2 leaf nonempty =>
      rw [collect, if_neg nonempty, read, dif_neg nonempty]
      rfl
  | case3 key rest ih =>
      rw [collect, ih, read_step]
      cases read rest with
      | error fault => rfl
      | ok p =>
          have hsegments : (cons key p).segments = key :: p.segments := rfl
          simp only [Except.map, hsegments, List.append_assoc, List.singleton_append]
  | case4 fields hfields =>
      rw [collect, read]
      · rfl
      all_goals exact hfields
  | case5 other hstr hmember hobj =>
      rw [collect, read]
      · rfl
      all_goals assumption

end Reading

/-! ## Operations -/

section Operations

/-- The target of an operation is read if there is one and it names segments. -/
theorem target_eq_ok_iff :
    (Operation.read document).target = .ok p ↔
      ∃ target, document.get? "target" = some target ∧ read target = .ok p := by
  cases document with
  | null | bool | num | str | arr => simp [Operation.read, Json.get?]
  | obj fields =>
      rw [Operation.read, Json.get?]
      cases Assoc.find? "target" fields with
      | none => simp
      | some target => simp

/-- An operation has no place to put its value if no target is given or if what is given names
nothing. -/
theorem target_eq_error_iff :
    (∃ fault, (Operation.read document).target = .error fault) ↔
      document.get? "target" = none ∨
        ∃ target, document.get? "target" = some target ∧ ∀ segments, ¬ Names target segments := by
  refine ⟨?_, fun h => ?_⟩
  · rintro ⟨fault, hfault⟩
    cases hget : document.get? "target" with
    | none => exact Or.inl rfl
    | some target =>
        refine Or.inr ⟨target, rfl, fun segments hnames => ?_⟩
        obtain ⟨p, hp, _⟩ := hnames.exists_read
        have hok := target_eq_ok_iff.mpr ⟨target, hget, hp⟩
        rw [hfault] at hok
        cases hok
  · cases htarget : (Operation.read document).target with
    | error fault => exact ⟨fault, rfl⟩
    | ok p =>
        obtain ⟨target, hget, hp⟩ := target_eq_ok_iff.mp htarget
        rcases h with hnone | ⟨other, hother, hunnamed⟩
        · rw [hget] at hnone
          cases hnone
        · rw [hget] at hother
          cases hother
          exact absurd (names_of_read hp) (hunnamed p.segments)

/-- The fields that a command can change are the first segments of the targets that its operations
are given. -/
theorem mem_changedFields_read {items : List Json} {root : String} :
    root ∈ (Command.mutate (items.map Operation.read)).changedFields ↔
      ∃ item ∈ items, ∃ target segments, item.get? "target" = some target ∧
        Names target segments ∧ segments[0]? = some root := by
  rw [Command.mem_changedFields]
  constructor
  · rintro ⟨op, hop, p, htarget, rfl⟩
    obtain ⟨item, hitem, rfl⟩ := List.mem_map.mp hop
    obtain ⟨target, hget, hp⟩ := target_eq_ok_iff.mp htarget
    exact ⟨item, hitem, target, p.segments, hget, names_of_read hp, p.getElem?_zero_segments⟩
  · rintro ⟨item, hitem, target, segments, hget, hnames, hfirst⟩
    obtain ⟨p, hp, rfl⟩ := hnames.exists_read
    refine ⟨_, List.mem_map_of_mem hitem, p, target_eq_ok_iff.mpr ⟨target, hget, hp⟩, ?_⟩
    rw [getElem?_zero_segments] at hfirst
    exact Option.some.inj hfirst

end Operations

/-- **What is read as a target.**  These are the chains of objects of one member each that end in a
text that is not empty, and the segments are the keys in order and then the text; segments that are
nested so are read back, and a document that is not read has a value that does not fit.  A reading
that collects the segments in one list gives the same list, or fails for the same reason, and the
list always has a first segment.  An operation therefore fails for its target just if no target is
given or the target is no such chain, and of the others a command changes the fields that the first
segments name. -/
theorem read_iff_names :
    (∀ document segments,
      (∃ p, read document = .ok p ∧ p.segments = segments) ↔ Names document segments) ∧
    (∀ document fault, read document = .error fault ↔ Breaks document fault) ∧
    (∀ (segments : List String) (hne : segments ≠ []), segments.getLast hne ≠ "" →
      (read (nested segments)).map Target.segments = .ok segments) ∧
    (∀ document, collect [] document = (read document).map Target.segments) ∧
    (∀ document p, read document = .ok p → p.segments[0]? = some p.root) ∧
    (∀ document, (∃ fault, (Operation.read document).target = .error fault) ↔
      document.get? "target" = none ∨
        ∃ target, document.get? "target" = some target ∧ ∀ segments, ¬ Names target segments) ∧
    ∀ (items : List Json) (root : String),
      root ∈ (Command.mutate (items.map Operation.read)).changedFields ↔
        ∃ item ∈ items, ∃ target segments, item.get? "target" = some target ∧
          Names target segments ∧ segments[0]? = some root := by
  refine ⟨fun _ _ => names_iff.symm, fun _ _ => read_eq_error_iff, fun segments hne hlast => ?_,
    collect_eq [], fun _ p _ => p.getElem?_zero_segments, fun _ => target_eq_error_iff,
    fun _ _ => mem_changedFields_read⟩
  obtain ⟨p, rfl⟩ := exists_segments_eq hne hlast
  rw [nested_segments, read_eq_ok_iff.mpr rfl]
  rfl

/-- Operations with a target whose first key is empty, with an empty text as target, and with
none. -/
def emptyKeyItems : List Json :=
  [.obj [("target", nested ["", "position", "x"])], .obj [("target", .str "")], .obj []]

theorem read_iff_names_emptyKeyItems :
    (read (nested ["", "position", "x"])).map Target.segments = .ok ["", "position", "x"] ∧
    (∃ p, read (nested ["", "x"]) = .ok p ∧ p.root = "" ∧ p.segments[0]? = some p.root) ∧
    (∀ item ∈ emptyKeyItems.tail, ∃ fault, (Operation.read item).target = .error fault) ∧
    "" ∈ (Command.mutate (emptyKeyItems.map Operation.read)).changedFields := by
  obtain ⟨_, _, hnested, _, hfirst, herror, hchanged⟩ := read_iff_names
  have hpath : read (nested ["", "x"]) = .ok ⟨[""], "x", by decide⟩ := rfl
  have hnames : Names (nested ["", "position", "x"]) ["", "position", "x"] :=
    .step "" (.step "position" (.leaf "x" (by decide)))
  refine ⟨hnested _ (by decide) (by decide), ⟨_, hpath, rfl, hfirst _ _ hpath⟩,
    fun item hitem => (herror item).mpr ?_,
    (hchanged _ _).mpr ⟨_, List.mem_cons_self, _, _, rfl, hnames, rfl⟩⟩
  rcases List.mem_cons.mp hitem with rfl | hitem
  · refine Or.inr ⟨.str "", rfl, fun segments h => ?_⟩
    cases h with
    | leaf text nonempty => exact nonempty rfl
  · obtain rfl := List.mem_singleton.mp hitem
    exact Or.inl rfl

end Target
end EntityRules
