set_option autoImplicit false

/-!
# Tables

A table assigns values to finitely many keys.  The view of a table is `get?`;
the number of keys is `size`.  Each operation is described by what it does to
these two.
-/

namespace Meshway

/-- Values by key, each key once. -/
structure Table (κ ν : Type) where
  entries : List (κ × ν)
  distinct : (entries.map Prod.fst).Nodup

namespace Table

variable {κ ν : Type}

/-- No keys. -/
def empty : Table κ ν := ⟨[], .nil⟩

instance : Inhabited (Table κ ν) := ⟨empty⟩

/-- The number of keys. -/
def size (t : Table κ ν) : Nat := t.entries.length

/-- The keys. -/
def keys (t : Table κ ν) : List κ := t.entries.map Prod.fst

variable [DecidableEq κ]

/-- The value of a key. -/
def get? (t : Table κ ν) (k : κ) : Option ν := (t.entries.find? fun e => e.1 = k).map Prod.snd

/-- Whether a key has a value. -/
def contains (t : Table κ ν) (k : κ) : Bool := (t.get? k).isSome

/-- Takes a key out. -/
def erase (t : Table κ ν) (k : κ) : Table κ ν where
  entries := t.entries.filter fun e => e.1 ≠ k
  distinct := t.distinct.sublist (List.filter_sublist.map _)

/-- Assigns a value to a key. -/
def insert (t : Table κ ν) (k : κ) (v : ν) : Table κ ν where
  entries := (k, v) :: (t.erase k).entries
  distinct := by
    refine List.nodup_cons.2 ⟨?_, (t.erase k).distinct⟩
    simp [erase]

@[simp] theorem get?_empty (k : κ) : (empty : Table κ ν).get? k = none := rfl

omit [DecidableEq κ] in
@[simp] theorem size_empty : (empty : Table κ ν).size = 0 := rfl

theorem get?_erase (t : Table κ ν) (k k' : κ) :
    (t.erase k).get? k' = if k' = k then none else t.get? k' := by
  simp only [get?, erase, List.find?_filter]
  split
  · rename_i h
    subst h
    rw [List.find?_eq_none.2 (by simp)]
    rfl
  · rename_i h
    congr 2
    funext e
    by_cases he : e.1 = k'
    · simp [he, h]
    · simp [he]

theorem get?_insert (t : Table κ ν) (k k' : κ) (v : ν) :
    (t.insert k v).get? k' = if k' = k then some v else t.get? k' := by
  by_cases h : k = k'
  · simp [get?, insert, h]
  · have h' : ¬ k' = k := fun e => h e.symm
    have := get?_erase t k k'
    simp only [h', if_false] at this ⊢
    rw [← this]
    simp [get?, insert, h]

theorem get?_eq_none_iff (t : Table κ ν) (k : κ) : t.get? k = none ↔ k ∉ t.keys := by
  simp only [get?, keys, Option.map_eq_none_iff, List.find?_eq_none, decide_eq_true_eq,
    List.mem_map, not_exists, not_and]

theorem contains_iff (t : Table κ ν) (k : κ) : t.contains k = true ↔ k ∈ t.keys := by
  have := get?_eq_none_iff t k
  rw [contains, ← Option.ne_none_iff_isSome, ne_eq, this, Decidable.not_not]

theorem contains_erase_iff (t : Table κ ν) (k k' : κ) :
    (t.erase k).contains k' = true ↔ k' ≠ k ∧ t.contains k' = true := by
  rw [contains, get?_erase]
  split
  · rename_i h
    simp [h]
  · rename_i h
    simp [h, contains]

theorem contains_insert_iff (t : Table κ ν) (k k' : κ) (v : ν) :
    (t.insert k v).contains k' = true ↔ k' = k ∨ t.contains k' = true := by
  rw [contains, get?_insert]
  split
  · rename_i h
    simp [h]
  · rename_i h
    simp [h, contains]

/-- Nothing changes where a key without a value is taken out. -/
theorem erase_eq_self {t : Table κ ν} {k : κ} (h : t.get? k = none) : t.erase k = t := by
  cases t with
  | mk entries distinct =>
    simp only [erase, mk.injEq]
    refine List.filter_eq_self.2 fun e he => ?_
    have hne := (get?_eq_none_iff _ k).1 h
    exact decide_eq_true fun heq => hne (heq ▸ List.mem_map_of_mem he)

theorem erase_erase (t : Table κ ν) (k : κ) : (t.erase k).erase k = t.erase k :=
  erase_eq_self (by rw [get?_erase, if_pos rfl])

/-- Taking a key out undoes what was assigned to it. -/
theorem erase_insert_self (t : Table κ ν) (k : κ) (v : ν) :
    (t.insert k v).erase k = t.erase k := by
  simp [erase, insert]

theorem size_erase (t : Table κ ν) (k : κ) :
    (t.erase k).size = if t.contains k then t.size - 1 else t.size := by
  have hk : (t.erase k).keys = t.keys.erase k := by
    rw [keys, keys, t.distinct.erase_eq_filter k, List.filter_map]
    congr 1
    apply List.filter_congr
    intro e _
    by_cases h : e.1 = k <;> simp [h]
  have hs (u : Table κ ν) : u.size = u.keys.length := by simp [size, keys]
  rw [hs, hs, hk, List.length_erase]
  by_cases h : t.contains k
  · simp [h, (contains_iff t k).1 h]
  · have : k ∉ t.keys := fun hm => h ((contains_iff t k).2 hm)
    simp [h, this]

theorem size_insert (t : Table κ ν) (k : κ) (v : ν) :
    (t.insert k v).size = if t.contains k then t.size else t.size + 1 := by
  have h := size_erase t k
  have hs : (t.insert k v).size = (t.erase k).size + 1 := rfl
  rw [hs, h]
  split
  · rename_i hc
    have hm := (contains_iff t k).1 hc
    have : 0 < t.size := by
      have := List.length_pos_of_mem hm
      simpa [keys, size] using this
    omega
  · rfl

end Table

end Meshway
