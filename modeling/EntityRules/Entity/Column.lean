/-!
# Columns

**Input.**  A number of slots.

**Algorithm.**  A column has a fixed number of slots, each of which is empty or holds a value.
An index beyond the last slot reads as empty, and a write to it is lost.

**Results.**  `get?_set_self`, `get?_set_of_ne` and `size_set` describe a write by what is read
afterwards; `ext_get?` says that a column is known by its size and its values.
-/

namespace EntityRules

universe u

/-- A fixed number of slots for values of one type. -/
structure Column (α : Type u) where
  slots : Array (Option α)

namespace Column

variable {α : Type u}

/-- A column of empty slots. -/
def ofSize (size : Nat) : Column α := ⟨Array.replicate size none⟩

/-- The number of slots. -/
def size (c : Column α) : Nat := c.slots.size

/-- The value in a slot. -/
def get? (c : Column α) (i : Nat) : Option α := (c.slots[i]?).join

/-- Whether a slot holds a value. -/
def has (c : Column α) (i : Nat) : Bool := (c.get? i).isSome

/-- Fills or empties a slot. -/
def set (c : Column α) (i : Nat) (value : Option α) : Column α :=
  ⟨c.slots.setIfInBounds i value⟩

/-- Fills a slot; also the value that was there. -/
def insert (c : Column α) (i : Nat) (value : α) : Column α × Option α :=
  (c.set i (some value), c.get? i)

/-- Empties a slot; also the value that was there. -/
def remove (c : Column α) (i : Nat) : Column α × Option α :=
  (c.set i none, c.get? i)

/-- Changes the value in a slot, if there is one; also the new value. -/
def modify (c : Column α) (i : Nat) (f : α → α) : Column α × Option α :=
  match c.get? i with
  | some value => (c.set i (some (f value)), some (f value))
  | none => (c, none)

/-- The filled slots with their values, in ascending order. -/
def toList (c : Column α) : List (Nat × α) :=
  c.slots.toList.zipIdx.filterMap fun (value, i) => value.map fun v => (i, v)

section Values

@[simp] theorem size_set (c : Column α) (i : Nat) (value : Option α) :
    (c.set i value).size = c.size := by
  simp [size, set]

theorem get?_set_self (c : Column α) {i : Nat} (h : i < c.size) (value : Option α) :
    (c.set i value).get? i = value := by
  simp only [size] at h
  simp [get?, set, h]

theorem get?_set_of_ne (c : Column α) {i j : Nat} (h : i ≠ j) (value : Option α) :
    (c.set i value).get? j = c.get? j := by
  simp [get?, set, Array.getElem?_setIfInBounds_ne h]

theorem get?_of_size_le (c : Column α) {i : Nat} (h : c.size ≤ i) : c.get? i = none := by
  simp only [size] at h
  simp [get?, h]

theorem get?_set (c : Column α) (i j : Nat) (value : Option α) :
    (c.set i value).get? j = if j = i ∧ i < c.size then value else c.get? j := by
  by_cases hj : j = i
  · subst hj
    by_cases hlt : j < c.size
    · rw [if_pos ⟨rfl, hlt⟩, c.get?_set_self hlt]
    · rw [if_neg (fun h => hlt h.2), get?_of_size_le _ (by simpa using hlt),
        get?_of_size_le _ (by simpa using hlt)]
  · rw [if_neg (fun h => hj h.1), c.get?_set_of_ne (Ne.symm hj)]

theorem lt_size_of_get? {c : Column α} {i : Nat} {value : α} (h : c.get? i = some value) :
    i < c.size := by
  refine Nat.lt_of_not_le fun hle => ?_
  simp [c.get?_of_size_le hle] at h

/-- After a write, a slot holds what was written to it or else what it held. -/
theorem get?_set_cases {c : Column α} {i j : Nat} {value : Option α} {found : α}
    (h : (c.set i value).get? j = some found) :
    (j = i ∧ value = some found) ∨ (j ≠ i ∧ c.get? j = some found) := by
  by_cases hj : j = i
  · left
    subst hj
    have hsize : j < c.size := by
      rw [← c.size_set j value]
      exact lt_size_of_get? h
    rw [c.get?_set_self hsize] at h
    exact ⟨rfl, h⟩
  · right
    refine ⟨hj, ?_⟩
    rw [← c.get?_set_of_ne (Ne.symm hj) value]
    exact h

@[simp] theorem get?_ofSize (size i : Nat) : (ofSize size : Column α).get? i = none := by
  simp only [get?, ofSize, Array.getElem?_replicate]
  split <;> rfl

/-- The values of a column under a change of each of them. -/
theorem get?_map {β : Type u} (f : α → β) (c : Column α) (i : Nat) :
    (⟨c.slots.map fun slot => slot.map f⟩ : Column β).get? i = (c.get? i).map f := by
  simp only [get?, Array.getElem?_map]
  cases c.slots[i]? with
  | none => rfl
  | some slot => rfl

theorem ext_get? {c d : Column α} (hsize : c.size = d.size)
    (hget : ∀ i, c.get? i = d.get? i) : c = d := by
  obtain ⟨slots⟩ := c
  obtain ⟨slots'⟩ := d
  simp only [size] at hsize
  congr 1
  refine Array.ext hsize fun i h h' => ?_
  simpa [get?, h, h'] using hget i

end Values

end Column
end EntityRules
