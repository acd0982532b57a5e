import EntityRules.Proofs.Numeric.Value
import EntityRules.Rule.Definition

/-!
# Equality of documents and rules

Rules are compared with one another by an equality that compares numbers by their value, so
equal rules need not be the same: `0.0` equals `-0.0`.  It is an equivalence all the same, since
the numbers of a document are finite.

**Results.**
* `Json.beq_rfl`, `Json.beq_symm`, `Json.beq_trans`: one case for each kind of value.
* `instEquivBEq` for numbers, values, operations, commands and rules.
-/

namespace EntityRules

namespace Number

theorem beq_real_iff {x y : Float} {hx : x.isFinite = true} {hy : y.isFinite = true} :
    (Number.real x hx == Number.real y hy) = true ↔ Numeric.value? x = Numeric.value? y := by
  obtain ⟨v, hv⟩ := (Numeric.isFinite_iff_value? x).mp hx
  obtain ⟨w, hw⟩ := (Numeric.isFinite_iff_value? y).mp hy
  have hbeq : (Number.real x hx == Number.real y hy) = (x == y) := rfl
  rw [hbeq, Numeric.beq_iff_value? hv hw, hv, hw, Option.some.injEq]

instance : EquivBEq Number where
  rfl {m} := by
    cases m with
    | int m hm => exact beq_self_eq_true m
    | real x hx => exact beq_real_iff.mpr rfl
  symm {m n} h := by
    cases m with
    | int m hm =>
        cases n with
        | int n hn => exact BEq.symm (α := Int) h
        | real y hy => exact absurd h Bool.false_ne_true
    | real x hx =>
        cases n with
        | int n hn => exact absurd h Bool.false_ne_true
        | real y hy => exact beq_real_iff.mpr (beq_real_iff.mp h).symm
  trans {l m n} hlm hmn := by
    cases l with
    | int l hl =>
        cases m with
        | real x hx => exact absurd hlm Bool.false_ne_true
        | int m hm =>
            cases n with
            | int n hn => exact BEq.trans (α := Int) hlm hmn
            | real y hy => exact absurd hmn Bool.false_ne_true
    | real x hx =>
        cases m with
        | int m hm => exact absurd hlm Bool.false_ne_true
        | real y hy =>
            cases n with
            | int n hn => exact absurd hmn Bool.false_ne_true
            | real z hz =>
                exact beq_real_iff.mpr ((beq_real_iff.mp hlm).trans (beq_real_iff.mp hmn))

end Number

namespace Json

mutual

theorem beq_rfl (x : Json) : beq x x = true := by
  match x with
  | .null => rfl
  | .bool b => exact beq_self_eq_true b
  | .num n => exact BEq.rfl (a := n)
  | .str s => exact beq_self_eq_true s
  | .arr items => exact beqItems_rfl items
  | .obj fields => exact beqFields_rfl fields

theorem beqItems_rfl (xs : List Json) : beqItems xs xs = true := by
  match xs with
  | [] => rfl
  | x :: xs => simp [beqItems, beq_rfl x, beqItems_rfl xs]

theorem beqFields_rfl (fs : List (String × Json)) : beqFields fs fs = true := by
  match fs with
  | [] => rfl
  | (k, x) :: fs => simp [beqFields, beq_rfl x, beqFields_rfl fs]

end

section Forms

variable {y : Json}

theorem beq_null_iff : beq .null y = true ↔ y = .null := by
  cases y <;> simp [beq]

theorem beq_bool_iff {b : Bool} : beq (.bool b) y = true ↔ y = .bool b := by
  cases y with
  | bool c => simp [beq, eq_comm (a := c)]
  | null | num | str | arr | obj => simp [beq]

theorem beq_num_iff {m : Number} : beq (.num m) y = true ↔ ∃ n, y = .num n ∧ (m == n) = true := by
  cases y <;> simp [beq]

theorem beq_str_iff {s : String} : beq (.str s) y = true ↔ y = .str s := by
  cases y with
  | str t => simp [beq, eq_comm (a := t)]
  | null | bool | num | arr | obj => simp [beq]

theorem beq_arr_iff {xs : List Json} :
    beq (.arr xs) y = true ↔ ∃ ys, y = .arr ys ∧ beqItems xs ys = true := by
  cases y <;> simp [beq]

theorem beq_obj_iff {fs : Fields} :
    beq (.obj fs) y = true ↔ ∃ gs, y = .obj gs ∧ beqFields fs gs = true := by
  cases y <;> simp [beq]

theorem beqItems_cons_iff {x : Json} {xs ys : List Json} :
    beqItems (x :: xs) ys = true ↔
      ∃ y rest, ys = y :: rest ∧ beq x y = true ∧ beqItems xs rest = true := by
  cases ys <;> simp [beqItems]

theorem beqFields_cons_iff {k : String} {x : Json} {fs gs : Fields} :
    beqFields ((k, x) :: fs) gs = true ↔
      ∃ y rest, gs = (k, y) :: rest ∧ beq x y = true ∧ beqFields fs rest = true := by
  cases gs with
  | nil => simp [beqFields]
  | cons field rest =>
      obtain ⟨l, y⟩ := field
      simp only [beqFields, Bool.and_eq_true, beq_iff_eq, List.cons.injEq, Prod.mk.injEq]
      constructor
      · rintro ⟨⟨rfl, hxy⟩, hrest⟩
        exact ⟨y, rest, ⟨⟨rfl, rfl⟩, rfl⟩, hxy, hrest⟩
      · rintro ⟨_, _, ⟨⟨rfl, rfl⟩, rfl⟩, hxy, hrest⟩
        exact ⟨⟨rfl, hxy⟩, hrest⟩

end Forms

mutual

theorem beq_symm (x : Json) {y : Json} (h : beq x y = true) : beq y x = true := by
  match x with
  | .null =>
      obtain rfl := beq_null_iff.mp h
      exact h
  | .bool b =>
      obtain rfl := beq_bool_iff.mp h
      exact h
  | .num m =>
      obtain ⟨n, rfl, hmn⟩ := beq_num_iff.mp h
      exact beq_num_iff.mpr ⟨m, rfl, BEq.symm hmn⟩
  | .str s =>
      obtain rfl := beq_str_iff.mp h
      exact h
  | .arr xs =>
      obtain ⟨ys, rfl, hitems⟩ := beq_arr_iff.mp h
      exact beq_arr_iff.mpr ⟨xs, rfl, beqItems_symm xs hitems⟩
  | .obj fs =>
      obtain ⟨gs, rfl, hfields⟩ := beq_obj_iff.mp h
      exact beq_obj_iff.mpr ⟨fs, rfl, beqFields_symm fs hfields⟩

theorem beqItems_symm (xs : List Json) {ys : List Json} (h : beqItems xs ys = true) :
    beqItems ys xs = true := by
  match xs with
  | [] => cases ys <;> simp_all [beqItems]
  | x :: xs =>
      obtain ⟨y, rest, rfl, hxy, hrest⟩ := beqItems_cons_iff.mp h
      exact beqItems_cons_iff.mpr ⟨x, xs, rfl, beq_symm x hxy, beqItems_symm xs hrest⟩

theorem beqFields_symm (fs : List (String × Json)) {gs : List (String × Json)}
    (h : beqFields fs gs = true) : beqFields gs fs = true := by
  match fs with
  | [] => cases gs <;> simp_all [beqFields]
  | (k, x) :: fs =>
      obtain ⟨y, rest, rfl, hxy, hrest⟩ := beqFields_cons_iff.mp h
      exact beqFields_cons_iff.mpr ⟨x, fs, rfl, beq_symm x hxy, beqFields_symm fs hrest⟩

end

mutual

theorem beq_trans (x : Json) {y z : Json} (hxy : beq x y = true) (hyz : beq y z = true) :
    beq x z = true := by
  match x with
  | .null =>
      obtain rfl := beq_null_iff.mp hxy
      exact hyz
  | .bool b =>
      obtain rfl := beq_bool_iff.mp hxy
      exact hyz
  | .num l =>
      obtain ⟨m, rfl, hlm⟩ := beq_num_iff.mp hxy
      obtain ⟨n, rfl, hmn⟩ := beq_num_iff.mp hyz
      exact beq_num_iff.mpr ⟨n, rfl, BEq.trans hlm hmn⟩
  | .str s =>
      obtain rfl := beq_str_iff.mp hxy
      exact hyz
  | .arr xs =>
      obtain ⟨ys, rfl, hitems⟩ := beq_arr_iff.mp hxy
      obtain ⟨zs, rfl, hitems'⟩ := beq_arr_iff.mp hyz
      exact beq_arr_iff.mpr ⟨zs, rfl, beqItems_trans xs hitems hitems'⟩
  | .obj fs =>
      obtain ⟨gs, rfl, hfields⟩ := beq_obj_iff.mp hxy
      obtain ⟨hs, rfl, hfields'⟩ := beq_obj_iff.mp hyz
      exact beq_obj_iff.mpr ⟨hs, rfl, beqFields_trans fs hfields hfields'⟩

theorem beqItems_trans (xs : List Json) {ys zs : List Json} (hxy : beqItems xs ys = true)
    (hyz : beqItems ys zs = true) : beqItems xs zs = true := by
  match xs with
  | [] =>
      cases ys with
      | nil => exact hyz
      | cons y ys => simp [beqItems] at hxy
  | x :: xs =>
      obtain ⟨y, ys, rfl, hhead, hrest⟩ := beqItems_cons_iff.mp hxy
      obtain ⟨z, zs, rfl, hhead', hrest'⟩ := beqItems_cons_iff.mp hyz
      exact beqItems_cons_iff.mpr
        ⟨z, zs, rfl, beq_trans x hhead hhead', beqItems_trans xs hrest hrest'⟩

theorem beqFields_trans (fs : List (String × Json)) {gs hs : List (String × Json)}
    (hfg : beqFields fs gs = true) (hgh : beqFields gs hs = true) :
    beqFields fs hs = true := by
  match fs with
  | [] =>
      cases gs with
      | nil => exact hgh
      | cons g gs => simp [beqFields] at hfg
  | (k, x) :: fs =>
      obtain ⟨y, gs, rfl, hhead, hrest⟩ := beqFields_cons_iff.mp hfg
      obtain ⟨z, hs, rfl, hhead', hrest'⟩ := beqFields_cons_iff.mp hgh
      exact beqFields_cons_iff.mpr
        ⟨z, hs, rfl, beq_trans x hhead hhead', beqFields_trans fs hrest hrest'⟩

end

instance : EquivBEq Json where
  rfl {x} := beq_rfl x
  symm {x _} h := beq_symm x h
  trans {x _ _} hxy hyz := beq_trans x hxy hyz

end Json

/-! ## Rules -/

section Lists

variable {α : Type} [BEq α] [EquivBEq α]

/-- Lists are compared item by item. -/
theorem beq_iff_forall₂ {xs ys : List α} :
    (xs == ys) = true ↔ List.Forall₂ (fun x y => (x == y) = true) xs ys := by
  induction xs generalizing ys with
  | nil => cases ys <;> simp
  | cons x xs ih => cases ys <;> simp [ih]

instance equivBEqList : EquivBEq (List α) where
  rfl {xs} := by
    induction xs with
    | nil => rfl
    | cons x xs ih => simp
  symm {xs ys} h := by
    have hitems := (beq_iff_forall₂.mp h).flip
    exact beq_iff_forall₂.mpr (hitems.imp fun _ _ hxy => BEq.symm hxy)
  trans {xs ys zs} hxy hyz := by
    induction xs generalizing ys zs with
    | nil =>
        cases ys with
        | nil => exact hyz
        | cons y ys => simp at hxy
    | cons x xs ih =>
        cases ys with
        | nil => simp at hxy
        | cons y ys =>
            cases zs with
            | nil => simp at hyz
            | cons z zs =>
                simp only [List.cons_beq_cons, Bool.and_eq_true] at hxy hyz ⊢
                exact ⟨BEq.trans hxy.1 hyz.1, ih hxy.2 hyz.2⟩

end Lists

theorem Operation.sameTarget_iff {p q : Except TargetFault Target} :
    sameTarget p q = true ↔ p = q := by
  cases p <;> cases q <;> simp [sameTarget]

theorem Operation.beq_iff {a b : Operation} :
    (a == b) = true ↔ a.target = b.target ∧ (a.value == b.value) = true := by
  rw [← sameTarget_iff]
  exact Bool.and_eq_true_iff

instance : EquivBEq Operation where
  rfl := Operation.beq_iff.mpr ⟨rfl, BEq.rfl⟩
  symm h := by
    obtain ⟨htarget, hvalue⟩ := Operation.beq_iff.mp h
    exact Operation.beq_iff.mpr ⟨htarget.symm, BEq.symm hvalue⟩
  trans hab hbc := by
    obtain ⟨htarget, hvalue⟩ := Operation.beq_iff.mp hab
    obtain ⟨htarget', hvalue'⟩ := Operation.beq_iff.mp hbc
    exact Operation.beq_iff.mpr ⟨htarget.trans htarget', BEq.trans hvalue hvalue'⟩

theorem Command.beq_mutate_iff {operations : List Operation} {c : Command} :
    beq (.mutate operations) c = true ↔
      ∃ others, c = .mutate others ∧ (operations == others) = true := by
  cases c <;> simp [beq]

theorem Command.beq_deactivate_iff {c : Command} :
    beq .deactivate c = true ↔ c = .deactivate := by
  cases c <;> simp [beq]

theorem Command.beq_loadScene_iff {path : String} {c : Command} :
    beq (.loadScene path) c = true ↔ c = .loadScene path := by
  cases c with
  | loadScene other => simp [beq, eq_comm (a := other)]
  | mutate | deactivate => simp [beq]

instance : EquivBEq Command where
  rfl {c} := by
    cases c with
    | mutate operations => exact Command.beq_mutate_iff.mpr ⟨operations, rfl, BEq.rfl⟩
    | deactivate => exact Command.beq_deactivate_iff.mpr rfl
    | loadScene path => exact Command.beq_loadScene_iff.mpr rfl
  symm {c d} h := by
    cases c with
    | mutate operations =>
        obtain ⟨others, rfl, hsame⟩ := Command.beq_mutate_iff.mp h
        exact Command.beq_mutate_iff.mpr ⟨operations, rfl, BEq.symm hsame⟩
    | deactivate =>
        obtain rfl := Command.beq_deactivate_iff.mp h
        exact h
    | loadScene path =>
        obtain rfl := Command.beq_loadScene_iff.mp h
        exact h
  trans {b c d} hbc hcd := by
    cases b with
    | mutate operations =>
        obtain ⟨others, rfl, hsame⟩ := Command.beq_mutate_iff.mp hbc
        obtain ⟨further, rfl, hsame'⟩ := Command.beq_mutate_iff.mp hcd
        exact Command.beq_mutate_iff.mpr ⟨further, rfl, BEq.trans hsame hsame'⟩
    | deactivate =>
        obtain rfl := Command.beq_deactivate_iff.mp hbc
        exact hcd
    | loadScene path =>
        obtain rfl := Command.beq_loadScene_iff.mp hbc
        exact hcd

/-- Equal rules have the same name and the same selector. -/
theorem Rule.beq_iff {a b : Rule} :
    (a == b) = true ↔
      a.label = b.label ∧ a.source = b.source ∧ (a.filter == b.filter) = true ∧
        (a.command == b.command) = true := by
  have hbeq : (a == b) = (a.label == b.label && a.source == b.source && a.filter == b.filter &&
    a.command == b.command) := rfl
  simp only [hbeq, Bool.and_eq_true, beq_iff_eq, and_assoc]

instance : EquivBEq Rule where
  rfl := Rule.beq_iff.mpr ⟨rfl, rfl, BEq.rfl, BEq.rfl⟩
  symm h := by
    obtain ⟨hlabel, hsource, hfilter, hcommand⟩ := Rule.beq_iff.mp h
    exact Rule.beq_iff.mpr ⟨hlabel.symm, hsource.symm, BEq.symm hfilter, BEq.symm hcommand⟩
  trans hab hbc := by
    obtain ⟨hlabel, hsource, hfilter, hcommand⟩ := Rule.beq_iff.mp hab
    obtain ⟨hlabel', hsource', hfilter', hcommand'⟩ := Rule.beq_iff.mp hbc
    exact Rule.beq_iff.mpr ⟨hlabel.trans hlabel', hsource.trans hsource',
      BEq.trans hfilter hfilter', BEq.trans hcommand hcommand'⟩

end EntityRules
