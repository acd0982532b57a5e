import EntityRules.Proofs.Engine.Events

/-!
# Which steps see a collision event

A step recalculates whenever an event waits, and the pass then finds the sets that belong to it.
A refresh recalculates as well, so a refresh between a pulse and the next step takes the event
away from the pass.  Events are kept by slot and forgotten by the end of a scene only, so an
entity that takes over a slot that was freed in another way takes over its events.

**Results.**
* `pulse_reaches_next_step`: without a refresh in between, an event reaches the pass of the next
  step, and in any case none after it.
* `refresh_takes_event`: with a refresh in between it does not reach the pass.
* `no_event_before_activation`: an entity matches no event from before its activation, if slots
  with events are freed by scenes only.
* `event_outlives_entity`: otherwise it may.
-/

namespace EntityRules
namespace Engine

variable {g : Engine} {kind : EventKind} {e : Nat} {a : EngineAction}

section Waiting

/-- The operations that let waiting events live. -/
def Recalculates : EngineAction → Prop
  | .refresh | .step _ => True
  | _ => False

/-- An entity is active all along.  A scene first ends the entities of the former one, and the
entity is active after that too. -/
def StaysActive (e : Nat) : Engine → List EngineAction → Prop
  | g, [] => g.store.isActive e = true
  | g, a :: rest =>
    g.store.isActive e = true ∧
      (∀ scene, a = .applyScene scene → g.endScene.store.isActive e = true) ∧
      StaysActive e (g.perform a) rest

theorem StaysActive.first {actions : List EngineAction} (h : StaysActive e g actions) :
    g.store.isActive e = true := by
  cases actions with
  | nil => exact h
  | cons a actions => exact h.1

theorem StaysActive.last {actions : List EngineAction} (h : StaysActive e g actions) :
    (g.run actions).store.isActive e = true := by
  induction actions generalizing g with
  | nil => exact h
  | cons a actions ih => exact ih h.2.2

theorem keepsWaiting_of_makes {change : CoreAction} (ha : ¬Recalculates a)
    (hscene : ∀ scene, a ≠ .applyScene scene) (h : Makes a change) : change.KeepsWaiting := by
  cases a with
  | loadRule | loadRules | activate | spawn => exact CoreAction.Builds.keepsWaiting h
  | clearRules | store =>
      cases change with
      | store | rules => trivial
      | events => exact h.elim
  | pulse other i =>
      obtain rfl : change = .events (.pulse other i) trivial := h
      simp [CoreAction.KeepsWaiting]
  | refresh => exact absurd trivial ha
  | step deltaTime => exact absurd trivial ha
  | applyScene scene => exact absurd rfl (hscene scene)
  | report | drainDiagnostics => exact h.elim

/-- The end of a scene spares the waiting events of the entities that it leaves active. -/
theorem waiting_endScene (h : g.selectors.Waiting kind e)
    (he : g.endScene.store.isActive e = true) : g.endScene.selectors.Waiting kind e := by
  have hreset : (g.core.perform (.rules .reset)).registry.Waiting kind e :=
    (Core.waiting_perform_iff (a := .rules .reset) trivial).mpr h
  exact hreset.perform (s := g.endScene.store) (a := .dropStaleEvents) trivial (by simp) (by simp)
    (fun _ => he)

/-- A waiting event waits on through every operation that does not recalculate. -/
theorem waiting_perform (h : g.selectors.Waiting kind e) (ha : ¬Recalculates a)
    (hscene : ∀ scene, a = .applyScene scene → g.endScene.store.isActive e = true) :
    (g.perform a).selectors.Waiting kind e := by
  by_cases hany : ∃ scene, a = .applyScene scene
  · obtain ⟨scene, rfl⟩ := hany
    have hkeeps : Core.Leads CoreAction.KeepsWaiting g.endScene.core
        (g.loaded scene).engine.core :=
      (g.leads_loaded scene).mono fun _ => CoreAction.Builds.keepsWaiting
    -- the match at the end leaves the events alone
    exact hkeeps.waiting (waiting_endScene h (hscene scene rfl))
  · have hkeeps : Core.Leads CoreAction.KeepsWaiting g.core (g.perform a).core :=
      (g.leads_perform a).mono fun _ =>
        keepsWaiting_of_makes ha fun scene heq => hany ⟨scene, heq⟩
    exact hkeeps.waiting h

theorem waiting_run {actions : List EngineAction} (h : g.selectors.Waiting kind e)
    (hactions : ∀ a ∈ actions, ¬Recalculates a) (hactive : StaysActive e g actions) :
    (g.run actions).selectors.Waiting kind e := by
  induction actions generalizing g with
  | nil => exact h
  | cons a actions ih =>
      obtain ⟨ha, hrest⟩ := List.forall_mem_cons.mp hactions
      exact ih (waiting_perform h ha hactive.2.1) hrest hactive.2.2

end Waiting

section Silence

theorem silent_of_makes {change : CoreAction} (ha : a ≠ .pulse kind e) (h : Makes a change) :
    change.Silent kind e := by
  cases a with
  | loadRule | loadRules | activate | spawn => exact (CoreAction.Builds.plain h).silent kind e
  | clearRules | store => exact CoreAction.Plain.silent h kind e
  | pulse other i =>
      obtain rfl : change = .events (.pulse other i) trivial := h
      intro heq
      obtain ⟨rfl, rfl⟩ := RegistryAction.pulse.inj heq
      exact ha rfl
  | refresh =>
      obtain rfl : change = .events .refresh trivial := h
      simp [CoreAction.Silent]
  | step deltaTime =>
      rcases h with rfl | hplain
      · simp [CoreAction.Silent]
      · exact hplain.silent kind e
  | applyScene scene =>
      rcases h with rfl | rfl | hplain
      · simp [CoreAction.Silent]
      · simp [CoreAction.Silent]
      · exact hplain.silent kind e
  | report | drainDiagnostics => exact h.elim

/-- No operation but its pulse notes an event. -/
theorem leads_silent (ha : a ≠ .pulse kind e) :
    Core.Leads (CoreAction.Silent kind e) g.core (g.perform a).core :=
  (g.leads_perform a).mono fun _ => silent_of_makes ha

/-- Without a pulse of its own an event is not made to wait. -/
theorem not_waiting_run {actions : List EngineAction} (h : ¬g.selectors.Waiting kind e)
    (hactions : EngineAction.pulse kind e ∉ actions) :
    ¬(g.run actions).selectors.Waiting kind e := by
  refine run_preserves (I := fun g => ¬g.selectors.Waiting kind e) ?_ h
  intro g a ha hquiet
  exact (leads_silent fun heq => hactions (heq ▸ ha)).not_waiting hquiet

theorem not_noted_run {actions : List EngineAction} (h : ¬g.selectors.Noted kind e)
    (hactions : EngineAction.pulse kind e ∉ actions) :
    ¬(g.run actions).selectors.Noted kind e := by
  refine run_preserves (I := fun g => ¬g.selectors.Noted kind e) ?_ h
  intro g a ha hquiet
  exact (leads_silent fun heq => hactions (heq ▸ ha)).not_noted hquiet

end Silence

section Steps

/-- The events that the pass of a step sees are those that were waiting. -/
theorem Reached.holds_event_step (hg : g.Reached) (kind : EventKind) (e : Nat)
    (deltaTime : Float) :
    (Atom.event kind).holds g.store (g.step deltaTime).1.selectors.events e =
      (g.selectors.pending.get kind).contains e := by
  obtain ⟨marks, hwatch⟩ := hg.sound.watch
  exact hwatch.events_refresh kind e

theorem Reached.not_waiting_step (hg : g.Reached) (kind : EventKind) (e : Nat)
    (deltaTime : Float) : ¬(g.step deltaTime).1.selectors.Waiting kind e := by
  obtain ⟨marks, hwatch⟩ := hg.sound.watch
  have hquiet := hwatch.quiet_refresh kind e
  intro hwaits
  rw [Registry.Waiting] at hwaits
  exact Bool.noConfusion (hwaits.symm.trans hquiet)

/-- The pass of the next step finds an entity in the set of every active rule whose selector has
a chain that asks for an event of a kind and whose other links hold of the entity then. -/
def Delivers (g : Engine) (kind : EventKind) (e : Nat) (deltaTime : Float) : Prop :=
  ∀ active ∈ g.rules.toList,
  ∀ chain ∈ active.rule.source.chains,
    (∃ link ∈ chain.links, link.AsksFor kind) →
    (∀ link ∈ chain.links, ¬link.AsksFor kind →
      link.linkHolds (Atom.holds g.store (g.step deltaTime).1.selectors.events e) = true) →
    ∃ found, (g.step deltaTime).1.selectors.found? active.selector = some found ∧
      found.contains e = true

/-- An event that waits is delivered to its entity. -/
theorem Reached.delivers (hg : g.Reached) (hactive : g.store.isActive e = true)
    (hwaits : g.selectors.Waiting kind e) (deltaTime : Float) : Delivers g kind e deltaTime := by
  intro active hrule chain hchain hasks hothers
  have hevent :
      (Atom.event kind).holds g.store (g.step deltaTime).1.selectors.events e = true :=
    (hg.holds_event_step kind e deltaTime).trans hwaits
  have hall : ∀ link ∈ chain.links,
      link.linkHolds (Atom.holds g.store (g.step deltaTime).1.selectors.events e) = true := by
    intro link hlink
    by_cases hkind : link.AsksFor kind
    · exact Selector.linkHolds_of_asksFor hevent hkind
    · exact hothers link hlink hkind
  obtain ⟨link, hlink, _⟩ := hasks
  obtain ⟨found, hfound, hcontains⟩ := hg.sound.seen hrule
  have hselects := Selector.holds_of_links hchain hlink hall
  exact ⟨found, hfound, (hcontains e).mpr ⟨hactive, hselects⟩⟩

theorem Reached.waiting_pulse (hg : g.Reached) (hactive : g.store.isActive e = true)
    (kind : EventKind) : (g.pulse kind e).selectors.Waiting kind e := by
  obtain ⟨marks, hwatch⟩ := hg.sound.watch
  have hcapacity : g.selectors.entityCapacity = g.store.capacity := hwatch.capacity
  refine Registry.waiting_pulse hwatch.sized ?_
  rw [hcapacity]
  exact Store.lt_capacity_of_isActive hactive

/-- **From a pulse to the next step.**  The pass of a step runs on the selectors that the step
leaves.  If an entity is active at a pulse and stays active, and nothing but the next step
recalculates, then the pass of that step finds the entity in the set of every active rule
whose selector has a chain that asks for the event and whose other links hold of the entity
then.  Whatever happens in between, no step after that one sees the event, until the entity
is pulsed again. -/
theorem pulse_reaches_next_step (g : Engine) (hg : g.Reached) (kind : EventKind) (e : Nat)
    (between : List EngineAction) (deltaTime : Float) :
    let h := (g.pulse kind e).run between
    let next := (h.step deltaTime).1
    (h.step deltaTime).2 =
      (h.driver.run deltaTime h.rules next.selectors h.store h.diagnostics).report ∧
    (StaysActive e (g.pulse kind e) between →
      (∀ a ∈ between, ¬Recalculates a) →
      Delivers h kind e deltaTime) ∧
    ∀ (later : List EngineAction) (laterTime : Float), .pulse kind e ∉ later →
      let l := next.run later
      let seen := (l.step laterTime).1.selectors
      (Atom.event kind).holds l.store seen.events e = false ∧
      ∀ active ∈ l.rules.toList,
        ∃ found, seen.found? active.selector = some found ∧
          (found.contains e = true ↔
            l.store.isActive e = true ∧
              active.rule.source.selects l.store seen.events e = true) := by
  intro h next
  have hh : h.Reached := (hg.perform (.pulse kind e)).run between
  refine ⟨rfl, ?_, ?_⟩
  · intro hactive hbetween
    have hpulsed : g.store.isActive e = true := hactive.first
    have hwaits := waiting_run (hg.waiting_pulse hpulsed kind) hbetween hactive
    exact hh.delivers hactive.last hwaits deltaTime
  · intro later laterTime hlater l seen
    have hl : l.Reached := (hh.perform (.step deltaTime)).run later
    -- the step has used the event up, and only a pulse of its own makes it wait again
    have hsilent : ¬l.selectors.Waiting kind e :=
      not_waiting_run (hh.not_waiting_step kind e deltaTime) hlater
    refine ⟨?_, ?_⟩
    · refine (hl.holds_event_step kind e laterTime).trans ?_
      exact Bool.eq_false_iff.mpr hsilent
    · intro active hrule
      obtain ⟨found, hfound, hcontains⟩ := hl.sound.seen hrule
      exact ⟨found, hfound, hcontains e⟩

/-- A rule on the entities with the tag `door` that something enters. -/
def enterRule : Rule :=
  ⟨"enter", .refined (.event .enter) (.atom (.tag "door")), RuleDefinition.keepAll, .mutate []⟩

theorem enterRule_asks : ∃ link ∈ enterRule.source.links, link.AsksFor .enter :=
  ⟨enterRule.source, List.mem_cons_self, rfl⟩

/-- The link that does not ask for the event asks for the tag. -/
theorem enterRule_others {s : Store} {v : Events} {e : Nat}
    (htag : (Atom.tag "door").holds s v e = true) :
    ∀ link ∈ enterRule.source.links, ¬link.AsksFor .enter →
      link.linkHolds (Atom.holds s v e) = true := by
  intro link hlink hother
  rcases List.mem_cons.mp hlink with rfl | hlink
  · exact absurd rfl hother
  · rw [List.mem_singleton.mp hlink]
    exact htag

/-- A global entity with the tag `door`, and the rule on it. -/
def doorEngine : Engine :=
  (new smallConfig .standard).run
    [.spawn .global (.obj [("tags", .arr [.str "door"])]), .activate .global enterRule]

/-- A scene with an entity of its own. -/
def otherScene : Scene := ⟨"other", [.obj [("id", .str "crate")]], [], [], []⟩

theorem pulse_reaches_next_step_doorEngine :
    ∃ found,
      ((((doorEngine.pulse .enter 0).run [.applyScene otherScene]).step 1).1).selectors.found? 0 =
        some found ∧
      found.contains 0 = true := by
  have hreached : doorEngine.Reached := (Reached.new smallConfig .standard).run _
  have h := pulse_reaches_next_step doorEngine hreached .enter 0 [.applyScene otherScene] 1
  have hlast : ((doorEngine.pulse .enter 0).run [.applyScene otherScene]).store.isActive 0 =
      true := by decide +kernel
  have hactive : StaysActive 0 (doorEngine.pulse .enter 0) [.applyScene otherScene] := by
    refine ⟨by decide +kernel, ?_, hlast⟩
    rintro scene ⟨⟩
    decide +kernel
  exact h.2.1 hactive (by simp [Recalculates]) ⟨enterRule, 0⟩
    (List.mem_of_getElem? (i := 0) rfl) enterRule.source List.mem_cons_self enterRule_asks
    (enterRule_others (by decide +kernel))

/-- A refresh between the pulse and the step uses the event up. -/
theorem refresh_takes_event :
    StaysActive 0 (doorEngine.pulse .enter 0) [.refresh] ∧
    ¬Delivers ((doorEngine.pulse .enter 0).run [.refresh]) .enter 0 1 := by
  have hlast : ((doorEngine.pulse .enter 0).run [.refresh]).store.isActive 0 = true := by
    decide +kernel
  refine ⟨⟨by decide +kernel, by simp, hlast⟩, ?_⟩
  intro hdelivers
  have hmissing :
      ((((doorEngine.pulse .enter 0).run [.refresh]).step 1).1.selectors.found? 0).map
        (·.contains 0) = some false := by decide +kernel
  obtain ⟨found, hfound, hcontains⟩ :=
    hdelivers ⟨enterRule, 0⟩ (List.mem_of_getElem? (i := 0) rfl) enterRule.source
      List.mem_cons_self enterRule_asks (enterRule_others (by decide +kernel))
  rw [hfound, Option.map_some, hcontains] at hmissing
  nomatch hmissing

end Steps

section Recycling

/-- The slot of an entity is pulsed only while it is active, and only the end of a scene frees
it while an event of the kind is noted for it. -/
def Spares (kind : EventKind) (e : Nat) : Engine → List EngineAction → Prop
  | _, [] => True
  | g, a :: rest =>
    (a = .pulse kind e → g.store.isActive e = true) ∧
      ((∃ scene, a = .applyScene scene) ∨
        (g.store.isActive e = true → (g.perform a).store.isActive e = false →
          ¬(g.perform a).selectors.Noted kind e)) ∧
      Spares kind e (g.perform a) rest

/-- The events that are noted after a scene was noted before it, for entities that the end of
the former scene left active. -/
theorem isActive_endScene_of_noted {scene : Scene}
    (h : (g.applyScene scene).1.selectors.Noted kind e) :
    g.endScene.store.isActive e = true := by
  -- a scene notes no event, so this one was noted when the stale events had been dropped
  have hsilent : Core.Leads (CoreAction.Silent kind e) g.endScene.core
      (g.loaded scene).engine.core :=
    (g.leads_loaded scene).mono fun _ hbuilds => hbuilds.plain.silent kind e
  have hend : g.endScene.selectors.Noted kind e := by
    by_contra hquiet
    exact hsilent.not_noted hquiet h
  exact Registry.isActive_of_noted hend

theorem isActive_applyScene {scene : Scene} (h : g.endScene.store.isActive e = true) :
    (g.applyScene scene).1.store.isActive e = true :=
  (g.leads_loaded scene).isActive_of_builds h

/-- While a slot is spared, an event is noted for it only if it is active. -/
theorem isActive_of_noted_run {actions : List EngineAction}
    (hg : g.selectors.Noted kind e → g.store.isActive e = true) (hspares : Spares kind e g actions)
    (hnoted : (g.run actions).selectors.Noted kind e) :
    (g.run actions).store.isActive e = true := by
  induction actions generalizing g with
  | nil => exact hg hnoted
  | cons a actions ih =>
      obtain ⟨hpulse, hfrees, hrest⟩ := hspares
      -- what the induction carries is that a noted event has an active entity
      refine ih ?_ hrest hnoted
      intro hnoted
      rcases hfrees with ⟨scene, rfl⟩ | hfrees
      · exact isActive_applyScene (isActive_endScene_of_noted hnoted)
      · have hbefore : g.store.isActive e = true := by
          by_cases ha : a = .pulse kind e
          · exact hpulse ha
          · refine hg ?_
            by_contra hquiet
            exact (leads_silent ha).not_noted hquiet hnoted
        cases hafter : (g.perform a).store.isActive e with
        | true => rfl
        | false => exact absurd hnoted (hfrees hbefore hafter)

theorem not_noted_new (config : Config) (table : Expr.Operators) (kind : EventKind) (e : Nat) :
    ¬(new config table).selectors.Noted kind e := by
  simp [Registry.Noted, Registry.Waiting, new, Registry.new]

/-- A free slot that was spared, and a slot of the scene after the end of a scene, has no
event. -/
theorem not_noted_of_free {config : Config} {table : Expr.Operators}
    {earlier : List EngineAction}
    (hfree :
      Spares kind e (new config table) earlier ∧
          ((new config table).run earlier).store.isActive e = false ∨
        ∃ before scene, earlier = before ++ [.applyScene scene] ∧
          config.globalEntities.toNat ≤ e) :
    ¬((new config table).run earlier).selectors.Noted kind e := by
  intro hnoted
  rcases hfree with ⟨hspares, hinactive⟩ | ⟨before, scene, rfl, he⟩
  · have hactive : ((new config table).run earlier).store.isActive e = true := by
      refine isActive_of_noted_run ?_ hspares hnoted
      intro hnew
      exact absurd hnew (not_noted_new config table kind e)
    rw [hactive] at hinactive
    exact Bool.noConfusion hinactive
  · rw [run, List.foldl_append] at hnoted
    have hreached : ((new config table).run before).Reached :=
      (Reached.new config table).run before
    have hactive := isActive_endScene_of_noted hnoted
    have hinactive := hreached.isActive_endScene (e := e)
      (by rw [config_run]; exact he)
    exact Bool.noConfusion (hactive.symm.trans hinactive)

/-- **Events and activations.**  Take a moment at which a slot is free, all its events having been
noted while it was active and it having been freed only by scenes while one was noted; or the
moment just after a scene, and a slot of the scene.  After that moment, until the slot is pulsed
again, no link that asks for an event of the kind holds of its entity: neither in the sets that
the pass of a step finds, which are those of the active entities that the selectors select by
the events of that step, nor when the entity that a parent selector selects is sought. -/
theorem no_event_before_activation (config : Config) (table : Expr.Operators)
    (kind : EventKind) (e : Nat) (earlier later : List EngineAction) (deltaTime : Float)
    (hfree :
      Spares kind e (new config table) earlier ∧
          ((new config table).run earlier).store.isActive e = false ∨
        ∃ before scene, earlier = before ++ [.applyScene scene] ∧
          config.globalEntities.toNat ≤ e)
    (hlater : EngineAction.pulse kind e ∉ later) :
    let h := ((new config table).run earlier).run later
    let seen := (h.step deltaTime).1.selectors
    (Atom.event kind).holds h.store seen.events e = false ∧
    (∀ active ∈ h.rules.toList,
      ∃ found, seen.found? active.selector = some found ∧
        (found.contains e = true ↔
          h.store.isActive e = true ∧
            active.rule.source.selects h.store seen.events e = true)) ∧
    (Atom.event kind).holds h.store h.selectors.events e = false ∧
    ∀ child, h.parentOf? child = some e →
      ∃ parent, h.store.get? .parent child = some parent ∧
        parent.selects h.store h.selectors.events e = true := by
  intro h seen
  have hreached : h.Reached := ((Reached.new config table).run earlier).run later
  have hquiet : ¬h.selectors.Noted kind e := not_noted_run (not_noted_of_free hfree) hlater
  refine ⟨?_, ?_, ?_, ?_⟩
  · refine (hreached.holds_event_step kind e deltaTime).trans ?_
    exact Bool.eq_false_iff.mpr fun hwaits => hquiet (Or.inl hwaits)
  · intro active hrule
    obtain ⟨found, hfound, hcontains⟩ := hreached.sound.seen hrule
    exact ⟨found, hfound, hcontains e⟩
  · exact Bool.eq_false_iff.mpr fun hlives => hquiet (Or.inr hlives)
  · intro child hparent
    obtain ⟨parent, hget, hfirst⟩ := Option.bind_eq_some_iff.mp hparent
    exact ⟨parent, hget, List.find?_some hfirst⟩

/-- A rule that ends the entities that something leaves. -/
def exitRule : Rule :=
  ⟨"exit", .atom (.event .exit), RuleDefinition.keepAll, .deactivate⟩

/-- An entity of the scene that something leaves, and the rule on it. -/
def exitEngine : Engine :=
  (new smallConfig .standard).run
    [.spawn .scene (.obj [("id", .str "old")]), .activate .global exitRule, .pulse .exit 1]

theorem no_event_before_activation_exitEngine :
    exitEngine.selectors.Noted .exit 1 ∧
    (Atom.event .exit).holds (exitEngine.run [.applyScene otherScene]).store
      ((exitEngine.run [.applyScene otherScene]).step 1).1.selectors.events 1 = false := by
  have hwaits : (exitEngine.selectors.pending.get .exit).contains 1 = true := by
    decide +kernel
  refine ⟨Or.inl hwaits, ?_⟩
  exact (no_event_before_activation smallConfig .standard .exit 1
    [.spawn .scene (.obj [("id", .str "old")]), .activate .global exitRule, .pulse .exit 1,
      .applyScene otherScene] [] 1
    (Or.inr ⟨[.spawn .scene (.obj [("id", .str "old")]), .activate .global exitRule,
      .pulse .exit 1], otherScene, rfl, by decide⟩) (by simp)).1

/-- An entity whose slot is freed otherwise leaves its event to the next one. -/
theorem event_outlives_entity :
    (exitEngine.run [.store (.deactivate 1)]).store.isActive 1 = false ∧
    let h := exitEngine.run [.store (.deactivate 1), .spawn .scene (.obj [("id", .str "new")])]
    h.store.isActive 1 = true ∧
    (Atom.event .exit).holds h.store (h.step 1).1.selectors.events 1 = true ∧
    (h.step 1).1.store.isActive 1 = false := by
  refine ⟨by decide +kernel, by decide +kernel, by decide +kernel, by decide +kernel⟩

end Recycling
end Engine
end EntityRules
