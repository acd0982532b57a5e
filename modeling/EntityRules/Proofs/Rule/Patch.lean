import EntityRules.Proofs.Document.Attributes
import EntityRules.Proofs.Rule.Command
import EntityRules.Proofs.Rule.Plain

/-!
# The members that are written back

The document of an entity is an object with its members in key order, and an assignment puts a
member into it in that order.  Of the edited document a pass moves the members under the roots of
the targets into a patch, root by root.  These are the members that the operations touch.

**Results.**
* `Target.assign_obj`: an assignment as an insertion.
* `Document.sorted_members`: the document of an entity.
* `Pass.patchOf_obj`: the members that are moved.
* `Plain.touched_eq_patchOf`: they are the touched ones.
-/

namespace EntityRules

section Targets

variable {fields : Fields} {given document : Json}

/-- An assignment into an object replaces the member under the first segment: by the value, or by
what an assignment into this member gives. -/
theorem Target.assignAt_cases {leaf : String} {steps : List String}
    (h : assignAt leaf given steps (.obj fields) = .ok document) :
    ∃ child, document = .obj (Assoc.insert (steps.headD leaf) child fields) ∧
      ∀ step rest, steps = step :: rest →
        assignAt leaf given rest (childOrEmpty fields step) = .ok child := by
  cases steps with
  | nil =>
      refine ⟨given, (Except.ok.inj h).symm, ?_⟩
      rintro _ _ ⟨⟩
  | cons step rest =>
      rw [assignAt] at h
      cases hchild : assignAt leaf given rest (childOrEmpty fields step) with
      | error blocked =>
          rw [hchild] at h
          cases h
      | ok child =>
          rw [hchild] at h
          refine ⟨child, (Except.ok.inj h).symm, ?_⟩
          rintro _ _ ⟨⟩
          exact hchild

theorem Target.assign_obj {t : Target} (h : t.assign (.obj fields) given = .ok document) :
    ∃ child, document = .obj (Assoc.insert t.root child fields) := by
  obtain ⟨child, hdocument, -⟩ := assignAt_cases h
  exact ⟨child, hdocument⟩

end Targets

/-- The document of a slot has its members in the order of their keys. -/
theorem Document.sorted_members (s : Store) (e : Nat) : Assoc.Sorted (members s e) := by
  have hkeys : ["_index", "flex", "id", "layout", "parent", "properties", "tags",
      "transform"].Pairwise (· < ·) := by decide
  exact sorted_present hkeys

namespace Pass

theorem find?_patch_foldl (fields : Fields) (roots : List String) {patch : Fields}
    (h : Assoc.Sorted patch) :
    let moved := roots.foldl
      (fun patch root =>
        match Assoc.find? root fields with
        | some value => Assoc.insert root value patch
        | none => patch)
      patch
    Assoc.Sorted moved ∧ ∀ name, Assoc.find? name moved =
      if name ∈ roots then (Assoc.find? name fields).or (Assoc.find? name patch)
      else Assoc.find? name patch := by
  induction roots generalizing patch with
  | nil => exact ⟨h, fun _ => rfl⟩
  | cons root roots ih =>
      cases hfind : Assoc.find? root fields with
      | none =>
          obtain ⟨hsorted, hmoved⟩ := ih h
          simp only [List.foldl_cons, hfind]
          refine ⟨hsorted, fun name => (hmoved name).trans ?_⟩
          by_cases hname : name = root
          · simp [hname, hfind]
          · simp [hname]
      | some value =>
          obtain ⟨hsorted, hmoved⟩ := ih (Assoc.sorted_insert h root value)
          simp only [List.foldl_cons, hfind]
          refine ⟨hsorted, fun name => (hmoved name).trans ?_⟩
          by_cases hname : name = root
          · simp [hname, hfind, Assoc.find?_insert_self]
          · simp [hname, Assoc.find?_insert_of_ne hname]

/-- The members that are moved out of a document. -/
theorem patchOf_obj (fields : Fields) (roots : List String) :
    ∃ patch, patchOf (.obj fields) roots = .obj patch ∧ Assoc.Sorted patch ∧
      ∀ name, Assoc.find? name patch =
        if name ∈ roots then Assoc.find? name fields else none := by
  have hempty : Assoc.Sorted ([] : Fields) := List.Pairwise.nil
  obtain ⟨hsorted, hmoved⟩ := find?_patch_foldl fields roots hempty
  refine ⟨_, rfl, hsorted, fun name => (hmoved name).trans ?_⟩
  rw [Assoc.find?_nil, Option.or_none]

end Pass

namespace Plain

variable {operations : List Operation} {fields : Fields}

/-- The touched fields are those that the command can change. -/
theorem touches_iff {field : String} :
    touches operations field = true ↔ field ∈ (Command.mutate operations).changedFields := by
  rw [Command.mem_changedFields, touches, List.any_eq_true]
  refine exists_congr fun op => and_congr_right fun _ => ?_
  cases op.target with
  | error fault => simp
  | ok target => cases hsteps : target.steps <;> simp [Target.segments, Target.root, hsteps]

/-- A document in order: what is moved out of it is what the operations touch. -/
theorem touched_eq_patchOf (h : Assoc.Sorted fields) (operations : List Operation) :
    touched operations (.obj fields) =
      Pass.patchOf (.obj fields) (Command.mutate operations).changedFields := by
  obtain ⟨patch, hpatch, hsorted, hfind⟩ :=
    Pass.patchOf_obj fields (Command.mutate operations).changedFields
  rw [hpatch, touched]
  refine congrArg Json.obj (Assoc.ext_find? (h.filter _) hsorted fun name => ?_)
  rw [hfind, Assoc.find?_filter]
  simp only [touches_iff]

end Plain
end EntityRules
