/-!
# Association lists in key order

**Input.**  A list of keys with values.

**Algorithm.**  `insert` replaces the value of a key in place, or puts a new key before the
first greater one, so that a list built by insertions is sorted and holds each key once.  Keys
are compared by code points.  `erase` drops every entry of the key.

**Results.**  `find?_insert`, `find?_erase_self` and `find?_erase_of_ne` say what a look-up sees
after a change.  They hold of every list, sorted or not.  `sorted_insert` and `sorted_erase`
keep a list in order, and in it a key that is there keeps its place (`insert_middle`).
-/

namespace EntityRules
namespace Assoc

universe u

variable {α : Type u}

/-- The value of a key. -/
def find? (key : String) : List (String × α) → Option α
  | [] => none
  | (k, v) :: rest => if k = key then some v else find? key rest

/-- Whether a key has a value. -/
def contains (key : String) (entries : List (String × α)) : Bool :=
  (find? key entries).isSome

/-- Gives a key a value, in key order. -/
def insert (key : String) (value : α) : List (String × α) → List (String × α)
  | [] => [(key, value)]
  | (k, v) :: rest =>
    if k = key then (key, value) :: rest
    else if key < k then (key, value) :: (k, v) :: rest
    else (k, v) :: insert key value rest

/-- Takes a key and its value away. -/
def erase (key : String) (entries : List (String × α)) : List (String × α) :=
  entries.filter fun entry => entry.1 ≠ key

/-- Inserts entries one after another; of two with one key the later wins. -/
def ofList (entries : List (String × α)) : List (String × α) :=
  entries.foldl (fun built entry => insert entry.1 entry.2 built) []

/-- Whether the keys ascend, so that each key occurs once. -/
def Sorted (entries : List (String × α)) : Prop :=
  entries.Pairwise fun a b => a.1 < b.1

section Values

@[simp] theorem find?_nil (key : String) : find? key ([] : List (String × α)) = none := rfl

theorem find?_insert_self (key : String) (value : α) (entries : List (String × α)) :
    find? key (insert key value entries) = some value := by
  induction entries with
  | nil => simp [insert, find?]
  | cons entry rest ih =>
    obtain ⟨k, v⟩ := entry
    by_cases hk : k = key
    · simp [insert, hk, find?]
    · by_cases hlt : key < k
      · simp [insert, hk, hlt, find?]
      · simp [insert, hk, hlt, find?, ih]

theorem find?_insert_of_ne {key other : String} (h : other ≠ key) (value : α)
    (entries : List (String × α)) :
    find? other (insert key value entries) = find? other entries := by
  have h' : key ≠ other := fun e => h e.symm
  induction entries with
  | nil => simp [insert, find?, h']
  | cons entry rest ih =>
    obtain ⟨k, v⟩ := entry
    by_cases hk : k = key
    · subst hk
      simp [insert, find?, h']
    · by_cases hlt : key < k
      · simp [insert, hk, hlt, find?, h']
      · simp [insert, hk, hlt, find?, ih]

theorem find?_insert (key other : String) (value : α) (entries : List (String × α)) :
    find? other (insert key value entries)
      = if other = key then some value else find? other entries := by
  by_cases h : other = key
  · subst h
    simp [find?_insert_self]
  · simp [find?_insert_of_ne h, h]

theorem find?_erase_self (key : String) (entries : List (String × α)) :
    find? key (erase key entries) = none := by
  induction entries with
  | nil => rfl
  | cons entry rest ih =>
    obtain ⟨k, v⟩ := entry
    by_cases hk : k = key
    · simpa [erase, hk] using ih
    · simpa [erase, hk, find?] using ih

theorem find?_erase_of_ne {key other : String} (h : other ≠ key) (entries : List (String × α)) :
    find? other (erase key entries) = find? other entries := by
  have h' : key ≠ other := fun e => h e.symm
  induction entries with
  | nil => rfl
  | cons entry rest ih =>
    obtain ⟨k, v⟩ := entry
    by_cases hk : k = key
    · subst hk
      simpa [erase, find?, h'] using ih
    · simp only [erase, ne_eq, decide_not] at ih
      simp [erase, hk, find?, ih]

end Values

section Order

theorem mem_insert {key : String} {value : α} {entries : List (String × α)}
    {entry : String × α} (h : entry ∈ insert key value entries) :
    entry = (key, value) ∨ entry ∈ entries := by
  induction entries with
  | nil => exact Or.inl (List.mem_singleton.mp h)
  | cons head rest ih =>
    obtain ⟨k, v⟩ := head
    rw [insert] at h
    split at h
    · exact (List.mem_cons.mp h).imp_right (List.mem_cons_of_mem _)
    · split at h
      · exact List.mem_cons.mp h
      · rcases List.mem_cons.mp h with hhead | hrest
        · exact Or.inr (List.mem_cons.mpr (Or.inl hhead))
        · exact (ih hrest).imp_right (List.mem_cons_of_mem _)

theorem sorted_insert {entries : List (String × α)} (h : Sorted entries) (key : String)
    (value : α) : Sorted (insert key value entries) := by
  induction entries with
  | nil => exact List.pairwise_singleton _ _
  | cons head rest ih =>
    obtain ⟨k, v⟩ := head
    obtain ⟨hhead, hrest⟩ := List.pairwise_cons.mp h
    rw [insert]
    split
    · next heq => exact List.pairwise_cons.mpr ⟨heq ▸ hhead, hrest⟩
    · next hne =>
      split
      · next hlt =>
        refine List.pairwise_cons.mpr ⟨fun entry hentry => ?_, h⟩
        rcases List.mem_cons.mp hentry with rfl | hentry
        · exact hlt
        · exact String.lt_trans hlt (hhead entry hentry)
      · next hle =>
        have hlt : k < key := Std.lt_of_le_of_ne hle hne
        refine List.pairwise_cons.mpr ⟨fun entry hentry => ?_, ih hrest⟩
        rcases mem_insert hentry with rfl | hentry
        · exact hlt
        · exact hhead entry hentry

theorem sorted_erase {entries : List (String × α)} (h : Sorted entries) (key : String) :
    Sorted (erase key entries) :=
  List.Pairwise.filter _ h

/-- A key that is there keeps its place. -/
theorem insert_middle {done : List (String × α)} {key : String}
    (h : ∀ entry ∈ done, entry.1 < key) (old value : α) (rest : List (String × α)) :
    insert key value (done ++ (key, old) :: rest) = done ++ (key, value) :: rest := by
  induction done with
  | nil => rw [List.nil_append, insert, if_pos rfl, List.nil_append]
  | cons head done ih =>
    obtain ⟨k, v⟩ := head
    obtain ⟨hhead, hdone⟩ := List.forall_mem_cons.mp h
    have hne : k ≠ key := fun heq => String.lt_irrefl key (heq ▸ hhead)
    have hnlt : ¬key < k := fun hlt => String.lt_irrefl k (String.lt_trans hhead hlt)
    rw [List.cons_append, insert, if_neg hne, if_neg hnlt, ih hdone, List.cons_append]

end Order

end Assoc
end EntityRules
