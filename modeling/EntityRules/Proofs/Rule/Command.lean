import EntityRules.Rule.Command

/-!
# The documents that are commands

A command is written as an object with one member, whose key is the kind of the command and whose
value is what the kind asks for.  Reading takes all documents of this form.  It also takes the end
of the entities with any value in place of `true`, so a rule whose author has written
`{"deactivate": false}` ends its entities all the same.  Every other document is malformed.

**Results.**
* `read_of_describes`: every document that describes a command is read as it.
* `read_member_cases`: all that reading can make of one member.
* `read_iff_describes`: what is read, and how the rest is refused.
* `read_accepts_false`: a document that is read although it describes no command.
* `mem_changedFields`: the fields that operations can change.
-/

namespace EntityRules
namespace Command

/-- The documents that describe a command.  A list of operations gives one operation for each of
its items, in order. -/
inductive Describes : Json → Command → Prop
  | mutate (items : List Json) :
      Describes (.obj [("mut", .arr items)]) (.mutate (items.map Operation.read))
  | deactivate : Describes (.obj [("deactivate", .bool true)]) .deactivate
  | loadScene (path : String) (nonempty : path ≠ "") :
      Describes (.obj [("loadScene", .str path)]) (.loadScene path)

variable {document : Json} {c : Command} {e : Failure}

/-- Only `true` describes the end of the entities. -/
theorem Describes.eq_true (h : Describes document c) {payload : Json}
    (hmember : document = .obj [("deactivate", payload)]) : payload = .bool true := by
  cases h with
  | mutate items => simp at hmember
  | deactivate => simpa using hmember.symm
  | loadScene path nonempty => simp at hmember

/-! ## One member -/

section Members

theorem read_mut (payload : Json) :
    read (.obj [("mut", payload)]) =
      match payload with
      | .arr items => .ok (.mutate (items.map Operation.read))
      | _ => .error (.malformed "command 'mut'" "expected a list of operations") := by
  cases payload <;> rfl

/-- The value of this member is not looked at. -/
theorem read_deactivate (payload : Json) :
    read (.obj [("deactivate", payload)]) = .ok .deactivate :=
  rfl

theorem read_loadScene (payload : Json) :
    read (.obj [("loadScene", payload)]) =
      match payload with
      | .str path =>
        if path = "" then .error (.malformed "command 'loadScene'" "expected a scene path")
        else .ok (.loadScene path)
      | _ => .error (.malformed "command 'loadScene'" "expected a scene path") := by
  cases payload <;> rfl

/-- Every document that describes a command is read as it. -/
theorem read_of_describes (h : Describes document c) : read document = .ok c := by
  cases h with
  | mutate items => rw [read_mut]
  | deactivate => rw [read_deactivate]
  | loadScene path nonempty => simp only [read_loadScene, if_neg nonempty]

/-- All that reading can make of one member. -/
theorem read_member_cases (kind : String) (payload : Json) :
    (∃ c, Describes (.obj [(kind, payload)]) c) ∨
    (kind = "deactivate" ∧ payload ≠ .bool true ∧
      read (.obj [(kind, payload)]) = .ok .deactivate) ∨
    ((kind = "mut" ∨ kind = "loadScene") ∧ ∃ message,
      read (.obj [(kind, payload)]) =
        .error (.malformed ("command '" ++ kind ++ "'") message)) ∨
    (kind ∉ ["mut", "deactivate", "loadScene"] ∧
      read (.obj [(kind, payload)]) =
        .error (.malformed "command" ("unknown command '" ++ kind ++ "'"))) := by
  by_cases hmut : kind = "mut"
  · subst hmut
    cases payload with
    | arr items => exact Or.inl ⟨_, .mutate items⟩
    | null | bool | num | str | obj =>
        exact Or.inr (Or.inr (Or.inl ⟨Or.inl rfl, _, read_mut _⟩))
  by_cases hdeactivate : kind = "deactivate"
  · subst hdeactivate
    by_cases htrue : payload = .bool true
    · subst htrue
      exact Or.inl ⟨_, .deactivate⟩
    · exact Or.inr (Or.inl ⟨rfl, htrue, read_deactivate payload⟩)
  by_cases hloadScene : kind = "loadScene"
  · subst hloadScene
    cases payload with
    | str path =>
        by_cases hempty : path = ""
        · refine Or.inr (Or.inr (Or.inl ⟨Or.inr rfl, "expected a scene path", ?_⟩))
          simp only [read_loadScene, if_pos hempty]
          rfl
        · exact Or.inl ⟨_, .loadScene path hempty⟩
    | null | bool | num | arr | obj =>
        exact Or.inr (Or.inr (Or.inl ⟨Or.inr rfl, _, read_loadScene _⟩))
  · refine Or.inr (Or.inr (Or.inr ⟨by simp [hmut, hdeactivate, hloadScene], ?_⟩))
    simp only [read, if_neg hmut, if_neg hdeactivate, if_neg hloadScene]

end Members

/-! ## Documents -/

section Documents

/-- A document that is read describes the command, or it ends the entities with another value. -/
theorem describes_of_read (h : read document = .ok c) :
    Describes document c ∨
      c = .deactivate ∧ ∃ payload, payload ≠ .bool true ∧
        document = .obj [("deactivate", payload)] := by
  match document with
  | .null | .bool _ | .num _ | .str _ | .arr _ | .obj [] | .obj (_ :: _ :: _) => cases h
  | .obj [(kind, payload)] =>
      rcases read_member_cases kind payload with
        ⟨c', hdescribes⟩ | ⟨rfl, hother, hread⟩ | ⟨_, _, hread⟩ | ⟨_, hread⟩
      · rw [read_of_describes hdescribes] at h
        exact Or.inl (Except.ok.inj h ▸ hdescribes)
      · rw [hread] at h
        exact Or.inr ⟨(Except.ok.inj h).symm, payload, hother, rfl⟩
      · rw [hread] at h
        cases h
      · rw [hread] at h
        cases h

theorem kind_of_read (h : read document = .error e) : e.kind = .malformed := by
  match document with
  | .null | .bool _ | .num _ | .str _ | .arr _ | .obj [] | .obj (_ :: _ :: _) =>
      cases h
      rfl
  | .obj [(kind, payload)] =>
      rcases read_member_cases kind payload with
        ⟨c, hdescribes⟩ | ⟨_, _, hread⟩ | ⟨_, _, hread⟩ | ⟨_, hread⟩
      · rw [read_of_describes hdescribes] at h
        cases h
      · rw [hread] at h
        cases h
      · rw [hread] at h
        cases h
        rfl
      · rw [hread] at h
        cases h
        rfl

/-- **What is read as a command.**  These are the documents that describe one, and each gives the
command that it describes; only the end of the entities is also read with another value than
`true`.  Everything else is malformed, and where the kind is known but its value has the wrong
shape, the failure names the kind. -/
theorem read_iff_describes (document : Json) :
    (∀ c, read document = .ok c ↔
      Describes document c ∨
        c = .deactivate ∧ ∃ payload, payload ≠ .bool true ∧
          document = .obj [("deactivate", payload)]) ∧
    (∀ e, read document = .error e → e.kind = .malformed) ∧
    (∀ kind payload, document = .obj [(kind, payload)] → kind = "mut" ∨ kind = "loadScene" →
      (∀ c, ¬ Describes document c) →
      ∃ message, read document = .error (.malformed ("command '" ++ kind ++ "'") message)) := by
  refine ⟨fun c => ⟨describes_of_read, ?_⟩, fun e => kind_of_read, ?_⟩
  · rintro (hdescribes | ⟨rfl, payload, _, rfl⟩)
    · exact read_of_describes hdescribes
    · exact read_deactivate payload
  · rintro kind payload rfl hknown hnone
    rcases read_member_cases kind payload with
      ⟨c, hdescribes⟩ | ⟨rfl, _⟩ | ⟨_, hread⟩ | ⟨hunknown, _⟩
    · exact absurd hdescribes (hnone c)
    · rcases hknown with hkind | hkind
      · exact absurd hkind (by decide)
      · exact absurd hkind (by decide)
    · exact hread
    · rcases hknown with rfl | rfl
      · exact absurd hunknown (by decide)
      · exact absurd hunknown (by decide)

/-- A rule that is told not to end its entities ends them. -/
theorem read_accepts_false :
    read (.obj [("deactivate", .bool false)]) = .ok .deactivate ∧
    ∀ c, ¬ Describes (.obj [("deactivate", .bool false)]) c := by
  refine ⟨read_deactivate _, fun c h => ?_⟩
  cases h.eq_true rfl

end Documents

/-! ## Fields -/

section Fields

theorem mem_foldl_addOnce {root : String} (found texts : List String) :
    root ∈ texts.foldl addOnce found ↔ root ∈ found ∨ root ∈ texts := by
  induction texts generalizing found with
  | nil => simp
  | cons text texts ih =>
      have hadd : root ∈ addOnce found text ↔ root ∈ found ∨ root = text := by
        by_cases hmem : text ∈ found
        · have hsame : root = text → root ∈ found := fun heq => heq ▸ hmem
          simp only [addOnce, if_pos hmem, or_iff_left_of_imp hsame]
        · simp [addOnce, hmem]
      rw [List.foldl_cons, ih, hadd, List.mem_cons, or_assoc]

/-- The fields that operations can change are the roots of their targets. -/
theorem mem_changedFields {operations : List Operation} {root : String} :
    root ∈ (mutate operations).changedFields ↔
      ∃ op ∈ operations, ∃ t, op.target = .ok t ∧ t.root = root := by
  have hroot (op : Operation) : op.root? = some root ↔ ∃ t, op.target = .ok t ∧ t.root = root := by
    cases htarget : op.target with
    | error fault => simp [Operation.root?, htarget]
    | ok t => simp [Operation.root?, htarget]
  simp only [changedFields, mem_foldl_addOnce, List.not_mem_nil, false_or, List.mem_filterMap,
    hroot]

end Fields

end Command
end EntityRules
