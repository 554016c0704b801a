import Mathlib.Data.List.Induction
import Mathlib.Data.List.Nodup
import DelegatedFetch.Table

/-!
# What is in a table, and how much

A value is found in a table exactly if it is an entry of it, since no key occurs
twice. For the same reason erasing removes one entry at most, and inserting adds
one only under a key that is new.
-/

namespace DelegatedFetch.Table

variable {α β : Type}

theorem size_filter_le (t : Table α β) (p : α → β → Bool) : (t.filter p).size ≤ t.size :=
  List.length_filter_le _ _

variable [DecidableEq α]

/-- A value is found in a table exactly if it is an entry of it. -/
theorem find?_eq_some_iff (t : Table α β) {k : α} {v : β} :
    t.find? k = some v ↔ (k, v) ∈ t.entries := by
  rw [find?, Option.map_eq_some_iff]
  constructor
  · rintro ⟨⟨key, value⟩, first, rfl⟩
    have same : key = k := by simpa using List.find?_some first
    exact same ▸ List.mem_of_find?_eq_some first
  · intro mem
    obtain ⟨e, first⟩ : ∃ e, t.entries.find? (·.1 = k) = some e := by
      rw [← Option.isSome_iff_exists, List.find?_isSome]
      exact ⟨(k, v), mem, by simp⟩
    have same : e.1 = k := by simpa using List.find?_some first
    -- no key occurs twice, so the first entry is the one that is meant
    have once := List.inj_on_of_nodup_map t.nodup (List.mem_of_find?_eq_some first) mem same
    exact ⟨e, first, by rw [once]⟩

/-- What is found among some entries of a table is found in it. -/
theorem find?_of_filter {t : Table α β} {p : α → β → Bool} {k : α} {v : β}
    (found : (t.filter p).find? k = some v) : t.find? k = some v := by
  rw [find?_eq_some_iff] at found ⊢
  exact (List.mem_filter.1 found).1

theorem contains_iff_mem (t : Table α β) (k : α) : t.contains k = true ↔ k ∈ t.entries.map (·.1) := by
  rw [contains, Option.isSome_iff_exists, List.mem_map]
  constructor
  · rintro ⟨v, found⟩
    exact ⟨(k, v), t.find?_eq_some_iff.1 found, rfl⟩
  · rintro ⟨⟨key, v⟩, mem, rfl⟩
    exact ⟨v, t.find?_eq_some_iff.2 mem⟩

/-- An entry is erased, if there is one under the key. -/
theorem size_erase (t : Table α β) (k : α) :
    (t.erase k).size + (if t.contains k then 1 else 0) = t.size := by
  have split := List.length_eq_countP_add_countP (·.1 = k) (l := t.entries)
  have once : t.entries.countP (·.1 = k) = if t.contains k then 1 else 0 := by
    have count := t.nodup.count (a := k)
    rw [List.count, List.countP_map] at count
    simp only [contains_iff_mem]
    rw [← count]
    exact List.countP_congr fun e _ => by simp
  have rest : (t.erase k).size = t.entries.countP fun e => ¬ (decide (e.1 = k) = true) := by
    rw [size, erase, List.countP_eq_length_filter]
    simp
  rw [once, ← rest, Nat.add_comm] at split
  exact split.symm

/-- Inserting adds an entry, unless there is one under the key. -/
theorem size_insert (t : Table α β) (k : α) (v : β) :
    (t.insert k v).size = t.size + if t.contains k then 0 else 1 := by
  have erased := t.size_erase k
  have added : (t.insert k v).size = (t.erase k).size + 1 := by
    rw [size, size, insert, erase, List.length_append, List.length_singleton]
  cases held : t.contains k with
  | true =>
    simp only [held, if_true] at erased ⊢
    omega
  | false =>
    simp only [held, Bool.false_eq_true, if_false] at erased ⊢
    omega

/-- Of the pairs of a list that have one key, a table has the last. -/
theorem find?_ofList (l : List (α × β)) (k : α) : (ofList l).find? k = l.reverse.lookup k := by
  induction l using List.reverseRecOn with
  | nil => rfl
  | append_singleton l e ih =>
    obtain ⟨a, v⟩ := e
    have last : ofList (l ++ [(a, v)]) = (ofList l).insert a v := List.foldl_append
    rw [last, find?_insert, ih, List.reverse_append, List.reverse_singleton, List.singleton_append]
    by_cases same : k = a
    · rw [if_pos same, same, List.lookup_cons_self]
    · rw [if_neg same, List.lookup_cons, beq_false_of_ne same]

end DelegatedFetch.Table
