import EntityRules.Proofs.Document.Patch

/-!
# What the members of a patch change

A member of a patch says what it changes without looking at the component that is patched.  So each
member has one change, or one reason for which it is refused, whatever has been made of the
component before.

**Results.**
* `patchVector_eq`, `patchAttribute_eq`: the members of a patch through their changes.
* `patchVector_cases`, `patchAttribute_cases`: what a member that applies has changed.
* `foldl_take_value`, `foldl_take_failures`: a patch through the changes of its members.
-/

namespace EntityRules
namespace Document

/-! ## Members -/

section Changes

variable {α : Type} {name : String} {value : Json}

/-- What a member of a patch makes of a transform; none for a name that is no vector. -/
def vectorChange (name : String) (value : Json) : Option (Except String (Transform → Transform)) :=
  if name = "position" then some ((toVec3 value).map fun v t => { t with position := v })
  else if name = "scale" then some ((toVec3 value).map fun v t => { t with scale := v })
  else if name = "anchor" then some ((toVec3 value).map fun v t => { t with anchor := v })
  else if name = "rotation" then some ((toRotation value).map fun q t => { t with rotation := q })
  else none

/-- What a member of a patch makes of a style; none for a name that is no attribute. -/
def attributeChange (name : String) (value : Json) :
    Option (Except String (FlexStyle → FlexStyle)) :=
  (FlexAttribute.ofKey? name).map fun a => (toAttribute value a).map fun v style => style.set a v

/-- A change of a value that starts with a default. -/
def started (initial : α) (change : α → α) (old : Option α) : Option α :=
  some (change (old.getD initial))

/-- A change of properties under a name; a removal does not create them. -/
def propertyEffect (name : String) : Option Property → Option Properties → Option Properties
  | some value => started [] (Assoc.insert name value)
  | none => Option.map (Assoc.erase name)

/-- What a member of a patch makes of a component, or why it is refused; none if it is ignored. -/
def memberChange (name : String) (value : Json) :
    (c : Component) → Option (Except String (Option c.Value → Option c.Value))
  | .transform => (vectorChange name value).map (Except.map (started {}))
  | .flex => (attributeChange name value).map (Except.map (started .empty))
  | .properties => some ((propertyChange value).map (propertyEffect name))
  | .name | .tags | .parent | .layout => none

/-- A value after a change, unless there is none or it is refused. -/
def changed (change? : Option (Except String (α → α))) (a : α) : α :=
  match change? with
  | some (.ok change) => change a
  | _ => a

/-- The report of a change that is refused. -/
def complaint? (field : String) (change? : Option (Except String α)) : Option Failure :=
  match change? with
  | some (.error message) => some (.conversion field message)
  | _ => none

/-- A component after one member of a patch. -/
def amended (c : Component) (old : Option c.Value) (member : String × Json) : Option c.Value :=
  changed (memberChange member.1 member.2 c) old

/-- The report of a member of a patch that is refused. -/
def refusal? (c : Component) (member : String × Json) : Option Failure :=
  complaint? (key c ++ "." ++ member.1) (memberChange member.1 member.2 c)

theorem complaint?_map {β : Type} (field : String) (change? : Option (Except String α))
    (f : α → β) : complaint? field (change?.map (Except.map f)) = complaint? field change? := by
  rcases change? with _ | _ | _ <;> rfl

theorem patchVector_eq (t : Transform) (name : String) (value : Json) :
    patchVector t name value =
      (vectorChange name value).map (Except.map fun change => change t) := by
  unfold patchVector vectorChange
  split_ifs
  · cases toVec3 value <;> rfl
  · cases toVec3 value <;> rfl
  · cases toVec3 value <;> rfl
  · cases toRotation value <;> rfl
  · rfl

theorem patchAttribute_eq (style : FlexStyle) (name : String) (value : Json) :
    patchAttribute style name value =
      (attributeChange name value).map (Except.map fun change => change style) := by
  unfold patchAttribute attributeChange
  cases FlexAttribute.ofKey? name with
  | none => rfl
  | some a =>
      simp only [Option.map_some]
      cases toAttribute value a <;> rfl

/-- The vector that a member of a patch replaces. -/
theorem vectorChange_cases {f : Transform → Transform}
    (h : vectorChange name value = some (.ok f)) :
    (name = "position" ∧ ∃ v, toVec3 value = .ok v ∧ f = fun t => { t with position := v }) ∨
      (name = "scale" ∧ ∃ v, toVec3 value = .ok v ∧ f = fun t => { t with scale := v }) ∨
      (name = "anchor" ∧ ∃ v, toVec3 value = .ok v ∧ f = fun t => { t with anchor := v }) ∨
      (name = "rotation" ∧
        ∃ q, toRotation value = .ok q ∧ f = fun t => { t with rotation := q }) := by
  have hmap {β : Type} {g : β → Transform → Transform} {read : Except String β}
      (hread : some (read.map g) = some (.ok f)) : ∃ v, read = .ok v ∧ f = g v := by
    cases read with
    | error message => cases hread
    | ok v => exact ⟨v, rfl, (Except.ok.inj (Option.some.inj hread)).symm⟩
  rw [vectorChange] at h
  split at h
  · next hname => exact Or.inl ⟨hname, hmap h⟩
  split at h
  · next hname => exact Or.inr (Or.inl ⟨hname, hmap h⟩)
  split at h
  · next hname => exact Or.inr (Or.inr (Or.inl ⟨hname, hmap h⟩))
  split at h
  · next hname => exact Or.inr (Or.inr (Or.inr ⟨hname, hmap h⟩))
  · cases h

/-- The attribute that a member of a patch sets. -/
theorem attributeChange_cases {f : FlexStyle → FlexStyle}
    (h : attributeChange name value = some (.ok f)) :
    ∃ (a : FlexAttribute) (v : Option a.Value), a.key = name ∧ toAttribute value a = .ok v ∧
      f = fun style => style.set a v := by
  rw [attributeChange] at h
  obtain ⟨a, ha, hmap⟩ := Option.map_eq_some_iff.mp h
  cases hread : toAttribute value a with
  | error message =>
      rw [hread] at hmap
      cases hmap
  | ok v =>
      rw [hread] at hmap
      have hkey := List.find?_some ha
      exact ⟨a, v, of_decide_eq_true hkey, hread, (Except.ok.inj hmap).symm⟩

theorem exists_change {change? : Option (Except String (α → α))} {a b : α}
    (h : change?.map (Except.map fun change => change a) = some (.ok b)) :
    ∃ f, change? = some (.ok f) ∧ b = f a := by
  rcases change? with _ | _ | f
  · cases h
  · cases h
  · exact ⟨f, rfl, (Except.ok.inj (Option.some.inj h)).symm⟩

/-- The vectors of a transform that a member of a patch can replace. -/
theorem patchVector_cases {t u : Transform} (h : patchVector t name value = some (.ok u)) :
    (name = "position" ∧ ∃ v, toVec3 value = .ok v ∧ u = { t with position := v }) ∨
      (name = "scale" ∧ ∃ v, toVec3 value = .ok v ∧ u = { t with scale := v }) ∨
      (name = "anchor" ∧ ∃ v, toVec3 value = .ok v ∧ u = { t with anchor := v }) ∨
      (name = "rotation" ∧ ∃ q, toRotation value = .ok q ∧ u = { t with rotation := q }) := by
  rw [patchVector_eq] at h
  obtain ⟨f, hf, rfl⟩ := exists_change h
  rcases vectorChange_cases hf with ⟨hname, v, hread, rfl⟩ | ⟨hname, v, hread, rfl⟩ |
    ⟨hname, v, hread, rfl⟩ | ⟨hname, q, hread, rfl⟩
  · exact Or.inl ⟨hname, v, hread, rfl⟩
  · exact Or.inr (Or.inl ⟨hname, v, hread, rfl⟩)
  · exact Or.inr (Or.inr (Or.inl ⟨hname, v, hread, rfl⟩))
  · exact Or.inr (Or.inr (Or.inr ⟨hname, q, hread, rfl⟩))

theorem patchAttribute_cases {style updated : FlexStyle}
    (h : patchAttribute style name value = some (.ok updated)) :
    ∃ (a : FlexAttribute) (v : Option a.Value), a.key = name ∧ toAttribute value a = .ok v ∧
      updated = style.set a v := by
  rw [patchAttribute_eq] at h
  obtain ⟨f, hf, rfl⟩ := exists_change h
  obtain ⟨a, v, hname, hread, rfl⟩ := attributeChange_cases hf
  exact ⟨a, v, hname, hread, rfl⟩

end Changes

/-! ## Patches -/

section Patches

variable {α : Type} {label : String} {initial : α}
variable {parts : α → String → Json → Option (Except String α)}
variable {changes : String → Json → Option (Except String (α → α))}

/-- A part of a patch through its change. -/
theorem take_eq
    (hparts : ∀ a name value,
      parts a name value = (changes name value).map (Except.map fun change => change a))
    (p : Patched α) (member : String × Json) :
    p.take label parts member =
      match changes member.1 member.2 with
      | some result => p.step (label ++ member.1) (result.map fun change => change p.value)
      | none => p := by
  rw [Patched.take, hparts]
  cases changes member.1 member.2 <;> rfl

/-- A value that is put back only if a part of a patch applied, is the value after the changes of
the parts, the first of which starts with a default. -/
theorem foldl_take_value (label : String)
    (hparts : ∀ a name value,
      parts a name value = (changes name value).map (Except.map fun change => change a))
    (patch : Fields) (p : Patched α) (old : Option α)
    (hvalue : p.applied = false → p.value = old.getD initial) :
    (if (patch.foldl (Patched.take label parts) p).applied then
        some (patch.foldl (Patched.take label parts) p).value else old) =
      patch.foldl
        (fun old member =>
          changed ((changes member.1 member.2).map (Except.map (started initial))) old)
        (if p.applied then some p.value else old) := by
  induction patch generalizing p with
  | nil => rfl
  | cons member patch ih =>
      have hcurrent : (if p.applied then some p.value else old).getD initial = p.value := by
        cases happlied : p.applied with
        | false => exact (hvalue happlied).symm
        | true => rfl
      rw [List.foldl_cons, List.foldl_cons, take_eq hparts]
      cases changes member.1 member.2 with
      | none => exact ih p hvalue
      | some result =>
          cases result with
          | error message => exact ih _ hvalue
          | ok change =>
              have happlied := ih (p.step (label ++ member.1) (.ok (change p.value))) (by rintro ⟨⟩)
              simp only [Except.map, Option.map_some, changed, started, hcurrent]
              exact happlied

theorem foldl_take_failures
    (hparts : ∀ a name value,
      parts a name value = (changes name value).map (Except.map fun change => change a))
    (patch : Fields) (p : Patched α) :
    (patch.foldl (Patched.take label parts) p).failures.reverse =
      p.failures.reverse ++ patch.filterMap fun member =>
        complaint? (label ++ member.1) (changes member.1 member.2) := by
  induction patch generalizing p with
  | nil => exact (List.append_nil _).symm
  | cons member patch ih =>
      rw [List.foldl_cons, ih, List.filterMap_cons, take_eq hparts]
      cases changes member.1 member.2 with
      | none => rfl
      | some result =>
          cases result with
          | ok change => rfl
          | error message =>
              simp only [Except.map, Patched.step, complaint?, List.reverse_cons,
                List.append_assoc, List.singleton_append]

end Patches

end Document
end EntityRules
