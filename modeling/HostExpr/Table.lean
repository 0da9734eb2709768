/-!
Finite maps that remember the order in which their keys were first inserted.

A table is seen through `find?`. Each operation has one lemma through that view
(`find?_insert`, `find?_erase`), and the invariant that no key occurs twice is a field of the
type, so `size` counts keys.
-/

namespace HostExpr

/-- A finite map with distinct keys, in insertion order. -/
structure Table (κ α : Type) where
  entries : List (κ × α) := []
  nodup : (entries.map (·.1)).Nodup := by simp

namespace Table

variable {κ α β : Type}

def empty : Table κ α := {}

instance : Inhabited (Table κ α) := ⟨empty⟩

instance : EmptyCollection (Table κ α) := ⟨empty⟩

def keys (t : Table κ α) : List κ :=
  t.entries.map (·.1)

def size (t : Table κ α) : Nat :=
  t.entries.length

/-- The size is the number of keys. -/
theorem length_keys (t : Table κ α) : t.keys.length = t.size := by
  simp [keys, size]

/-- No key occurs twice. -/
theorem nodup_keys (t : Table κ α) : t.keys.Nodup :=
  t.nodup

variable [DecidableEq κ]

def find? (t : Table κ α) (k : κ) : Option α :=
  (t.entries.find? (·.1 = k)).map (·.2)

def contains (t : Table κ α) (k : κ) : Bool :=
  (t.find? k).isSome

/-- Replaces the value of a key that is present, or appends a new entry. -/
private def put (k : κ) (a : α) : List (κ × α) → List (κ × α)
  | [] => [(k, a)]
  | e :: rest => if e.1 = k then (k, a) :: rest else e :: put k a rest

/-- Storing adds the key and no other. -/
private theorem mem_keys_put {k j : κ} {a : α} {l : List (κ × α)} :
    j ∈ (put k a l).map (·.1) ↔ j = k ∨ j ∈ l.map (·.1) := by
  induction l with
  | nil => simp [put]
  | cons e rest ih =>
    by_cases h : e.1 = k
    · simp [put, h]
    · simp only [put, h, if_false, List.map_cons, List.mem_cons, ih]
      constructor
      · rintro (rfl | rfl | m)
        · exact .inr (.inl rfl)
        · exact .inl rfl
        · exact .inr (.inr m)
      · rintro (rfl | rfl | m)
        · exact .inr (.inl rfl)
        · exact .inl rfl
        · exact .inr (.inr m)

/-- Storing repeats no key. -/
private theorem nodup_put {k : κ} {a : α} {l : List (κ × α)} (h : (l.map (·.1)).Nodup) :
    ((put k a l).map (·.1)).Nodup := by
  induction l with
  | nil => simp [put]
  | cons e rest ih =>
    rw [List.map_cons, List.nodup_cons] at h
    by_cases he : e.1 = k
    · simp only [put, he, if_true, List.map_cons, List.nodup_cons]
      exact ⟨he ▸ h.1, h.2⟩
    · simp only [put, he, if_false, List.map_cons, List.nodup_cons]
      refine ⟨fun m => ?_, ih h.2⟩
      rcases mem_keys_put.1 m with rfl | m
      · exact he rfl
      · exact h.1 m

/-- Stores a value under a key: a key that is present keeps its place and loses its old value. -/
def insert (t : Table κ α) (k : κ) (a : α) : Table κ α where
  entries := put k a t.entries
  nodup := nodup_put t.nodup

def erase (t : Table κ α) (k : κ) : Table κ α where
  entries := t.entries.filter fun e => e.1 ≠ k
  nodup := (List.filter_sublist.map _).nodup t.nodup

def map (f : α → β) (t : Table κ α) : Table κ β where
  entries := t.entries.map fun e => (e.1, f e.2)
  nodup := by simpa [Function.comp_def] using t.nodup

/-- The table of a list of entries; a later entry of a key replaces an earlier one. -/
def ofList (l : List (κ × α)) : Table κ α :=
  l.foldl (fun t e => t.insert e.1 e.2) empty

/-- Nothing is stored in the empty table. -/
@[simp] theorem find?_empty (k : κ) : (empty : Table κ α).find? k = none := rfl

/-- What was stored last under a key is found; other keys are as before. -/
theorem find?_insert (t : Table κ α) (k j : κ) (a : α) :
    (t.insert k a).find? j = if j = k then some a else t.find? j := by
  obtain ⟨l, nodup⟩ := t
  simp only [find?, insert]
  clear nodup
  induction l with
  | nil =>
    by_cases h : j = k
    · simp [put, h]
    · simp [put, h, Ne.symm h]
  | cons e rest ih =>
    by_cases he : e.1 = k
    · by_cases h : j = k
      · simp [put, he, h]
      · simp [put, he, h, Ne.symm h]
    · by_cases hj : e.1 = j
      · have : j ≠ k := fun h => he (hj.trans h)
        simp [put, hj, this]
      · simp only [put, he, if_false, List.find?_cons, hj, decide_false]
        exact ih

/-- A removed key is not found; other keys are as before. -/
theorem find?_erase (t : Table κ α) (k j : κ) :
    (t.erase k).find? j = if j = k then none else t.find? j := by
  obtain ⟨l, nodup⟩ := t
  simp only [find?, erase]
  clear nodup
  induction l with
  | nil => simp
  | cons e rest ih =>
    by_cases he : e.1 = k
    · rw [List.filter_cons_of_neg (by simp [he]), ih]
      by_cases h : j = k
      · simp [h]
      · simp [he, h, Ne.symm h]
    · rw [List.filter_cons_of_pos (by simp [he])]
      by_cases hj : e.1 = j
      · have : j ≠ k := fun h => he (hj.trans h)
        simp [hj, this]
      · simp only [List.find?_cons, hj, decide_false]
        exact ih

/-- Applying a function to every value applies it to what is found. -/
theorem find?_map (f : α → β) (t : Table κ α) (k : κ) :
    (t.map f).find? k = (t.find? k).map f := by
  obtain ⟨l, nodup⟩ := t
  simp only [find?, map]
  clear nodup
  induction l with
  | nil => rfl
  | cons e rest ih =>
    by_cases h : e.1 = k
    · simp [h]
    · simpa [h] using ih

omit [DecidableEq κ] in
/-- Applying a function to every value keeps the number of keys. -/
theorem size_map (f : α → β) (t : Table κ α) : (t.map f).size = t.size := by
  simp [size, map]

/-- It does not matter which of two keys is removed first. -/
theorem erase_comm (t : Table κ α) (j k : κ) : (t.erase j).erase k = (t.erase k).erase j := by
  simp only [erase, List.filter_filter, Bool.and_comm]

/-- The keys are those under which something is found. -/
theorem mem_keys_iff (t : Table κ α) (k : κ) : k ∈ t.keys ↔ (t.find? k).isSome := by
  simp [keys, find?]

/-- Storing adds the key and no other. -/
theorem mem_keys_insert (t : Table κ α) (k j : κ) (a : α) :
    j ∈ (t.insert k a).keys ↔ j = k ∨ j ∈ t.keys :=
  mem_keys_put

/-- Removing a key that is present makes the table smaller. -/
theorem size_erase_lt {t : Table κ α} {k : κ} {a : α} (h : t.find? k = some a) :
    (t.erase k).size < t.size := by
  have mem : k ∈ t.keys := (t.mem_keys_iff k).2 (by simp [h])
  obtain ⟨e, he, rfl⟩ := List.mem_map.1 mem
  exact List.length_filter_lt_length_iff_exists.2 ⟨e, he, by simp⟩

end Table

end HostExpr
