/-!
# Tables

A table is a finite map kept as its entries, each key once. `find?` is the
view of a table: inserting changes the answer at one key, erasing removes
it there, and all other answers stay.
-/

namespace DelegatedFetch

/-- A finite map, as its entries; no key occurs twice. -/
structure Table (α : Type) (β : Type) where
  entries : List (α × β)
  nodup : (entries.map (·.1)).Nodup
  deriving DecidableEq

namespace Table

variable {α β : Type}

def empty : Table α β := ⟨[], by simp⟩

instance : Inhabited (Table α β) := ⟨empty⟩

def size (t : Table α β) : Nat := t.entries.length

def keys (t : Table α β) : List α := t.entries.map (·.1)

def filter (t : Table α β) (p : α → β → Bool) : Table α β where
  entries := t.entries.filter fun e => p e.1 e.2
  nodup := t.nodup.sublist (List.filter_sublist.map _)

variable [DecidableEq α]

def find? (t : Table α β) (k : α) : Option β := (t.entries.find? (·.1 = k)).map (·.2)

def contains (t : Table α β) (k : α) : Bool := (t.find? k).isSome

def erase (t : Table α β) (k : α) : Table α β where
  entries := t.entries.filter (·.1 ≠ k)
  nodup := t.nodup.sublist (List.filter_sublist.map _)

/-- The table with a value at a key, in place of the one it had. -/
def insert (t : Table α β) (k : α) (v : β) : Table α β where
  entries := (t.entries.filter (·.1 ≠ k)) ++ [(k, v)]
  nodup := by
    rw [List.map_append, List.nodup_append]
    refine ⟨t.nodup.sublist (List.filter_sublist.map _), by simp, ?_⟩
    intro a ha b hb
    obtain ⟨e, he, rfl⟩ := List.mem_map.1 ha
    have hk := (List.mem_filter.1 he).2
    simp only [List.map_cons, List.map_nil, List.mem_singleton] at hb
    simpa [hb] using hk

/-- The table of a list of pairs; the last pair of a key counts. -/
def ofList (l : List (α × β)) : Table α β := l.foldl (fun t (k, v) => t.insert k v) empty

@[simp] theorem find?_empty (k : α) : (empty : Table α β).find? k = none := rfl

theorem find?_erase (t : Table α β) (k k' : α) :
    (t.erase k).find? k' = if k' = k then none else t.find? k' := by
  unfold find? erase
  rw [List.find?_filter]
  by_cases h : k' = k
  · subst h
    simp
  · simp only [h, if_false]
    congr 2
    funext e
    by_cases he : e.1 = k' <;> simp [he, h]

theorem find?_insert (t : Table α β) (k k' : α) (v : β) :
    (t.insert k v).find? k' = if k' = k then some v else t.find? k' := by
  have h := find?_erase t k k'
  unfold find? erase at h
  unfold find? insert
  rw [List.find?_append]
  by_cases hk : k' = k
  · subst hk
    simp only [if_true] at h ⊢
    rw [Option.map_eq_none_iff.1 h]
    simp
  · simp only [hk, if_false] at h ⊢
    simp only [Option.map_or, h]
    have : ¬ k = k' := fun e => hk e.symm
    simp [this]

end Table
end DelegatedFetch
