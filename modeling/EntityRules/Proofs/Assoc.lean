import EntityRules.Assoc

/-!
# Folds over the entries of an object

An object holds each key once, and a patch goes through its entries one after another.  When
every entry changes what is seen under its own key only, the order of the entries does not
matter: what is seen under a key in the end depends on the entry of this key alone.

**Results.**
* `find?_eq_some_iff`: in an object, look-ups and entries are one thing.
* `ext_find?`: an object is known by its look-ups.
* `foldl_changes`: what a fold leaves under each key.
* `foldl_perm`, `foldl_foldl`: folds of steps that commute.
-/

namespace EntityRules
namespace Assoc

universe u v w

variable {α : Type u} {β : Type v} {σ : Type w} {γ : Type}
variable {key : String} {value : α} {entries : List (String × α)}

section Keys

/-- Each key occurs once. -/
def Distinct (entries : List (String × α)) : Prop := (entries.map Prod.fst).Nodup

instance (entries : List (String × α)) : Decidable (Distinct entries) :=
  inferInstanceAs (Decidable (List.Nodup _))

theorem Sorted.distinct (h : Sorted entries) : Distinct entries := by
  refine List.pairwise_map.mpr (h.imp ?_)
  intro a b hlt heq
  exact String.lt_irrefl b.1 (heq ▸ hlt)

theorem find?_eq_none_iff : find? key entries = none ↔ ∀ entry ∈ entries, entry.1 ≠ key := by
  induction entries with
  | nil => simp
  | cons entry rest ih =>
      obtain ⟨k, v⟩ := entry
      by_cases hk : k = key
      · simp [find?, hk]
      · simp [find?, hk, ih]

theorem mem_of_find? (h : find? key entries = some value) : (key, value) ∈ entries := by
  induction entries with
  | nil => nomatch h
  | cons entry rest ih =>
      obtain ⟨k, v⟩ := entry
      rw [find?] at h
      split at h
      · next hk =>
          obtain rfl := Option.some.inj h
          exact hk ▸ List.mem_cons_self
      · exact List.mem_cons_of_mem _ (ih h)

/-- What is put together from entries holds none but those. -/
theorem mem_of_mem_ofList {l : List (String × α)} {entry : String × α} (h : entry ∈ ofList l) :
    entry ∈ l := by
  have hfold : ∀ built : List (String × α),
      entry ∈ l.foldl (fun built entry => insert entry.1 entry.2 built) built →
        entry ∈ built ∨ entry ∈ l := by
    clear h
    induction l with
    | nil => exact fun built h => Or.inl h
    | cons first rest ih =>
        intro built h
        rcases ih _ h with hbuilt | hrest
        · rcases mem_insert hbuilt with rfl | hold
          · exact Or.inr List.mem_cons_self
          · exact Or.inl hold
        · exact Or.inr (List.mem_cons_of_mem _ hrest)
  exact (hfold [] h).resolve_left List.not_mem_nil

theorem find?_eq_some_iff (h : Distinct entries) :
    find? key entries = some value ↔ (key, value) ∈ entries := by
  refine ⟨mem_of_find?, fun hmem => ?_⟩
  induction entries with
  | nil => nomatch hmem
  | cons entry rest ih =>
      obtain ⟨k, v⟩ := entry
      obtain ⟨hnew, hrest⟩ := List.nodup_cons.mp h
      rcases List.mem_cons.mp hmem with heq | hmem
      · obtain ⟨rfl, rfl⟩ := Prod.mk.inj heq
        rw [find?, if_pos rfl]
      · have hne : k ≠ key := by
          intro heq
          exact hnew (List.mem_map.mpr ⟨(key, value), hmem, heq.symm⟩)
        rw [find?, if_neg hne, ih hrest hmem]

theorem find?_map (f : α → β) (key : String) (entries : List (String × α)) :
    find? key (entries.map fun entry => (entry.1, f entry.2)) = (find? key entries).map f := by
  induction entries with
  | nil => rfl
  | cons entry rest ih =>
      obtain ⟨k, v⟩ := entry
      by_cases hk : k = key
      · simp [find?, hk]
      · simp [find?, hk, ih]

/-- A selection by keys holds what was there under those. -/
theorem find?_filter (p : String → Bool) (key : String) (entries : List (String × α)) :
    find? key (entries.filter fun entry => p entry.1) =
      if p key then find? key entries else none := by
  induction entries with
  | nil => simp
  | cons entry rest ih =>
      obtain ⟨k, v⟩ := entry
      by_cases hk : k = key
      · subst hk
        cases hp : p k <;> simp [find?, hp, ih]
      · cases hp : p k <;> simp [find?, hp, hk, ih]

/-- Of two insertions under one key the later counts, whether or not the list is sorted. -/
theorem insert_insert (key : String) (old value : α) (entries : List (String × α)) :
    insert key value (insert key old entries) = insert key value entries := by
  induction entries with
  | nil => simp [insert]
  | cons entry rest ih =>
      obtain ⟨k, v⟩ := entry
      by_cases hk : k = key
      · simp [insert, hk]
      · by_cases hlt : key < k
        · simp [insert, hk, hlt]
        · simp [insert, hk, hlt, ih]

end Keys

section Changes

/-- Two objects with the same values under all keys are equal. -/
theorem ext_find? {l m : List (String × α)} (hl : Sorted l) (hm : Sorted m)
    (h : ∀ key, find? key l = find? key m) : l = m := by
  have hmem : ∀ entry, entry ∈ l ↔ entry ∈ m := by
    rintro ⟨key, value⟩
    rw [← find?_eq_some_iff hl.distinct, h, find?_eq_some_iff hm.distinct]
  have hnodup {l : List (String × α)} (hl : Sorted l) : l.Nodup := by
    refine List.Pairwise.imp ?_ hl
    intro a b hlt heq
    exact String.lt_irrefl b.1 (heq ▸ hlt)
  have hperm : l.Perm m := (List.perm_ext_iff_of_nodup (hnodup hl) (hnodup hm)).mpr hmem
  refine hperm.eq_of_pairwise (fun a b _ _ hab hba => ?_) hl hm
  exact absurd (String.lt_trans hab hba) (String.lt_irrefl a.1)

theorem insert_comm (h : Sorted entries) {key other : String} (hne : key ≠ other)
    (value given : α) :
    insert other given (insert key value entries) =
      insert key value (insert other given entries) := by
  refine ext_find? (sorted_insert (sorted_insert h _ _) _ _)
    (sorted_insert (sorted_insert h _ _) _ _) fun name => ?_
  simp only [find?_insert]
  split
  · next hname => rw [if_neg (hname ▸ hne.symm)]
  · rfl

theorem find?_erase (key other : String) (entries : List (String × α)) :
    find? other (erase key entries) = if other = key then none else find? other entries := by
  split
  · next heq => rw [heq, find?_erase_self]
  · next hne => exact find?_erase_of_ne hne entries

theorem erase_insert_comm (h : Sorted entries) {key other : String} (hne : key ≠ other)
    (value : α) :
    erase other (insert key value entries) = insert key value (erase other entries) := by
  refine ext_find? (sorted_erase (sorted_insert h _ _) _)
    (sorted_insert (sorted_erase h _) _ _) fun name => ?_
  simp only [find?_insert, find?_erase]
  split
  · next hname => rw [if_neg (hname ▸ hne.symm)]
  · rfl

theorem erase_comm (key other : String) (entries : List (String × α)) :
    erase other (erase key entries) = erase key (erase other entries) := by
  simp only [erase, List.filter_filter, Bool.and_comm]

theorem erase_erase (key : String) (entries : List (String × α)) :
    erase key (erase key entries) = erase key entries := by
  simp only [erase, List.filter_filter, Bool.and_self]

end Changes

section Folds

/-- One entry takes effect: what is seen under its key changes as it says, and what is seen
under the other keys stays. -/
structure Changes (Good : σ → Prop) (view : String → σ → γ) (Takes : String → α → γ → γ → Prop)
    (entry : String × α) (s t : σ) : Prop where
  good : Good t
  own : Takes entry.1 entry.2 (view entry.1 s) (view entry.1 t)
  others : ∀ key, key ≠ entry.1 → view key t = view key s

/-- What a fold over the entries of an object leaves under each key. -/
theorem foldl_changes {Good : σ → Prop} {view : String → σ → γ}
    {Takes : String → α → γ → γ → Prop} {step : σ → String × α → σ} (hdistinct : Distinct entries)
    (hstep : ∀ s, Good s → ∀ entry ∈ entries, Changes Good view Takes entry s (step s entry))
    {s : σ} (h : Good s) :
    Good (entries.foldl step s) ∧
      (∀ key, find? key entries = none → view key (entries.foldl step s) = view key s) ∧
      ∀ key value, find? key entries = some value →
        Takes key value (view key s) (view key (entries.foldl step s)) := by
  induction entries generalizing s with
  | nil => exact ⟨h, fun _ _ => rfl, fun _ _ hfind => nomatch hfind⟩
  | cons entry rest ih =>
      obtain ⟨k, v⟩ := entry
      obtain ⟨hnew, hrest⟩ := List.nodup_cons.mp hdistinct
      have hchanges := hstep s h (k, v) List.mem_cons_self
      obtain ⟨hgood, hkeeps, htakes⟩ :=
        ih hrest (fun t ht entry hmem => hstep t ht entry (List.mem_cons_of_mem _ hmem))
          hchanges.good
      -- no later entry has the key of the first one
      have hlast : find? k rest = none := by
        refine find?_eq_none_iff.mpr fun entry hmem heq => hnew ?_
        exact List.mem_map.mpr ⟨entry, hmem, heq⟩
      refine ⟨hgood, fun key hfind => ?_, fun key value hfind => ?_⟩
      · obtain ⟨hhead, htail⟩ := List.forall_mem_cons.mp (find?_eq_none_iff.mp hfind)
        rw [List.foldl_cons, hkeeps key (find?_eq_none_iff.mpr htail)]
        exact hchanges.others key (Ne.symm hhead)
      · rw [find?] at hfind
        rw [List.foldl_cons]
        split at hfind
        · next heq =>
            subst heq
            obtain rfl := Option.some.inj hfind
            rw [hkeeps k hlast]
            exact hchanges.own
        · next hne =>
            rw [← hchanges.others key (Ne.symm hne)]
            exact htakes key value hfind

variable (Good : σ → Prop) {step : σ → β → σ} {l m : List β} {s : σ}

/-- Steps that commute can be taken in any order. -/
theorem foldl_perm (hgood : ∀ s, Good s → ∀ a ∈ l, Good (step s a))
    (hcomm : ∀ s, Good s → ∀ a ∈ l, ∀ b ∈ l, step (step s a) b = step (step s b) a)
    (hperm : l.Perm m) (h : Good s) : l.foldl step s = m.foldl step s := by
  induction hperm generalizing s with
  | nil => rfl
  | cons a hperm ih =>
      refine ih (fun s hs b hb => hgood s hs b (List.mem_cons_of_mem a hb))
        (fun s hs b hb c hc => ?_) (hgood s h a List.mem_cons_self)
      exact hcomm s hs b (List.mem_cons_of_mem a hb) c (List.mem_cons_of_mem a hc)
  | swap a b l =>
      have hswap := hcomm s h b List.mem_cons_self a (List.mem_cons_of_mem b List.mem_cons_self)
      rw [List.foldl_cons, List.foldl_cons, List.foldl_cons, List.foldl_cons, hswap]
  | trans hfirst _ ih ih' =>
      refine (ih hgood hcomm h).trans (ih' ?_ ?_ h)
      · exact fun s hs a ha => hgood s hs a (hfirst.mem_iff.mpr ha)
      · exact fun s hs a ha b hb =>
          hcomm s hs a (hfirst.mem_iff.mpr ha) b (hfirst.mem_iff.mpr hb)

/-- A step that commutes with others can be taken before them. -/
theorem foldl_step {a : β} (hgood : ∀ s, Good s → ∀ b ∈ l, Good (step s b))
    (hcomm : ∀ s, Good s → ∀ b ∈ l, step (step s b) a = step (step s a) b) (h : Good s) :
    step (l.foldl step s) a = l.foldl step (step s a) := by
  induction l generalizing s with
  | nil => rfl
  | cons b l ih =>
      obtain ⟨hb, hl⟩ := List.forall_mem_cons.mp fun b hb s hs => hgood s hs b hb
      obtain ⟨hcommb, hcomml⟩ := List.forall_mem_cons.mp fun b hb s hs => hcomm s hs b hb
      rw [List.foldl_cons, List.foldl_cons, ← hcommb s h]
      exact ih (fun s hs c hc => hl c hc s hs) (fun s hs c hc => hcomml c hc s hs) (hb s h)

/-- Steps that commute and that change nothing when repeated change nothing when all are. -/
theorem foldl_foldl (hgood : ∀ s, Good s → ∀ a ∈ l, Good (step s a))
    (hcomm : ∀ s, Good s → ∀ a ∈ l, ∀ b ∈ l, step (step s a) b = step (step s b) a)
    (hsame : ∀ s, Good s → ∀ a ∈ l, step (step s a) a = step s a) (h : Good s) :
    l.foldl step (l.foldl step s) = l.foldl step s := by
  induction l generalizing s with
  | nil => rfl
  | cons a l ih =>
      have hgood' : ∀ s, Good s → ∀ b ∈ l, Good (step s b) :=
        fun s hs b hb => hgood s hs b (List.mem_cons_of_mem a hb)
      have hfirst := hgood s h a List.mem_cons_self
      have hpast : step (l.foldl step (step s a)) a = l.foldl step (step (step s a) a) :=
        foldl_step Good hgood' (fun s hs b hb =>
          hcomm s hs b (List.mem_cons_of_mem a hb) a List.mem_cons_self) hfirst
      rw [List.foldl_cons, List.foldl_cons, hpast, hsame s h a List.mem_cons_self]
      exact ih hgood'
        (fun s hs b hb c hc =>
          hcomm s hs b (List.mem_cons_of_mem a hb) c (List.mem_cons_of_mem a hc))
        (fun s hs b hb => hsame s hs b (List.mem_cons_of_mem a hb)) hfirst

end Folds

end Assoc
end EntityRules
