import EntityRules.Selector.Basic

/-!
# Histories of events

What becomes of an event depends on four kinds of moments only: pulses, recalculations, and the
moments at which stale events are dropped.  A history lists their marks, the latest first.

An event waits from its pulse to the next recalculation.  It lives from there to the one after.
In both states it ends early when the stale events are dropped while its entity is not active.

**Results.**  `waits_*` and `lives_*` say how one more mark changes which events wait and live.
-/

namespace EntityRules

/-- A moment that bears on events. -/
inductive Mark where
  /-- An event of a kind is noted for an entity. -/
  | pulse (kind : EventKind) (e : Nat)
  /-- The waiting events come to live, and those that lived are gone. -/
  | recalculation
  /-- The events of the entities that are not active are dropped. -/
  | drop (active : Nat → Bool)

namespace Mark

/-- Something was true of the history at a moment since which nothing was recalculated and no
drop of stale events found the entity inactive. -/
def Since (e : Nat) (p : List Mark → Prop) (marks : List Mark) : Prop :=
  ∃ after before,
    marks = after ++ before ∧
    Mark.recalculation ∉ after ∧
    (∀ active, Mark.drop active ∈ after → active e = true) ∧
    p before

/-- The event was noted since the last recalculation, and not dropped since. -/
def Waits (marks : List Mark) (kind : EventKind) (e : Nat) : Prop :=
  Since e (fun past => ∃ before, past = .pulse kind e :: before) marks

/-- The event was noted after the recalculation before the last one and not later than the last
one, and not dropped since. -/
def Lives (marks : List Mark) (kind : EventKind) (e : Nat) : Prop :=
  Since e (fun past => ∃ before, past = .recalculation :: before ∧ Waits before kind e) marks

section Values

variable {p : List Mark → Prop} {marks : List Mark} {kind : EventKind} {e : Nat}

/-- Either the latest mark is the moment in question, or it lies after that moment. -/
theorem since_cons {mark : Mark} :
    Since e p (mark :: marks) ↔
      p (mark :: marks) ∨
        (mark ≠ .recalculation ∧
          (∀ active, mark = .drop active → active e = true) ∧
          Since e p marks) := by
  constructor
  · rintro ⟨after, before, heq, hquiet, hspared, hp⟩
    cases after with
    | nil =>
        left
        rw [heq]
        exact hp
    | cons first after =>
        obtain ⟨rfl, rfl⟩ := List.cons.inj heq
        right
        refine ⟨fun h => hquiet ?_, fun active h => hspared active ?_, after, before, rfl,
          fun h => hquiet (List.mem_cons_of_mem _ h),
          fun active h => hspared active (List.mem_cons_of_mem _ h), hp⟩
        · rw [h]
          exact List.mem_cons_self
        · rw [h]
          exact List.mem_cons_self
  · rintro (hp | ⟨hne, hdrop, after, before, rfl, hquiet, hspared, hp⟩)
    · exact ⟨[], mark :: marks, rfl, by simp, by simp, hp⟩
    · refine ⟨mark :: after, before, rfl, ?_, ?_, hp⟩
      · intro h
        rcases List.mem_cons.mp h with h | h
        · exact hne h.symm
        · exact hquiet h
      · intro active h
        rcases List.mem_cons.mp h with h | h
        · exact hdrop active h.symm
        · exact hspared active h

theorem not_since_nil (hp : ¬ p []) : ¬ Since e p [] := by
  rintro ⟨after, before, heq, _, _, h⟩
  obtain ⟨rfl, rfl⟩ := List.nil_eq_append_iff.mp heq
  exact hp h

@[simp] theorem not_waits_nil : ¬ Waits [] kind e :=
  not_since_nil (by simp)

@[simp] theorem not_lives_nil : ¬ Lives [] kind e :=
  not_since_nil (by simp)

@[simp] theorem waits_pulse {kind' : EventKind} {e' : Nat} :
    Waits (.pulse kind' e' :: marks) kind e ↔
      (kind = kind' ∧ e = e') ∨ Waits marks kind e := by
  rw [Waits, since_cons]
  constructor
  · rintro (⟨before, h⟩ | ⟨_, _, h⟩)
    · obtain ⟨hmark, _⟩ := List.cons.inj h
      obtain ⟨rfl, rfl⟩ := Mark.pulse.inj hmark
      exact Or.inl ⟨rfl, rfl⟩
    · exact Or.inr h
  · rintro (⟨rfl, rfl⟩ | h)
    · exact Or.inl ⟨marks, rfl⟩
    · exact Or.inr ⟨by simp, by simp, h⟩

@[simp] theorem lives_pulse {kind' : EventKind} {e' : Nat} :
    Lives (.pulse kind' e' :: marks) kind e ↔ Lives marks kind e := by
  rw [Lives, since_cons]
  simp [Lives]

@[simp] theorem not_waits_recalculation : ¬ Waits (.recalculation :: marks) kind e := by
  rw [Waits, since_cons]
  simp

@[simp] theorem lives_recalculation :
    Lives (.recalculation :: marks) kind e ↔ Waits marks kind e := by
  rw [Lives, since_cons]
  simp

@[simp] theorem waits_drop {active : Nat → Bool} :
    Waits (.drop active :: marks) kind e ↔ active e = true ∧ Waits marks kind e := by
  rw [Waits, since_cons]
  simp [Waits]

@[simp] theorem lives_drop {active : Nat → Bool} :
    Lives (.drop active :: marks) kind e ↔ active e = true ∧ Lives marks kind e := by
  rw [Lives, since_cons]
  simp [Lives]

end Values

end Mark
end EntityRules
