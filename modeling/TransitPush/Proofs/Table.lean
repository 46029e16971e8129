import Mathlib.Data.List.Sort
import TransitPush.Table
/-!
# What tables and sets of references determine

A set of references is determined by its members and a table by its look-ups: both list what they
hold in one order.

* `RefSet.ext_mem`, `Table.ext_get?`: equal contents are equal values.
* `Table.mem_values`, `Table.values_filter`: the values of a table, and of a part of it.
* `Table.filterMap_get?_toList`: looking up a set of keys gives the values of that part of a table.
-/
namespace TransitPush

namespace RefSet

theorem mem_toList {s : RefSet} {r : String} : r ∈ s.toList ↔ r ∈ s := Iff.rfl

theorem not_mem_empty (r : String) : ¬ r ∈ (∅ : RefSet) := List.not_mem_nil

theorem ext_mem {s t : RefSet} (h : ∀ r, r ∈ s ↔ r ∈ t) : s = t := by
  have hrefs : s.refs = t.refs := s.ascending.eq_of_mem_iff t.ascending h
  cases s; cases t; cases hrefs; rfl

theorem isEmpty_iff {s : RefSet} : s.isEmpty = true ↔ ∀ r, ¬ r ∈ s := by
  rw [isEmpty, List.isEmpty_iff, List.eq_nil_iff_forall_not_mem]
  exact Iff.rfl

theorem isEmpty_eq_false {s : RefSet} : s.isEmpty = false ↔ ∃ r, r ∈ s := by
  rw [← Bool.not_eq_true, isEmpty_iff]
  simp only [Classical.not_forall, Classical.not_not]

end RefSet

namespace Assoc

variable {α : Type}

/-- Keys that ascend are all different, so every entry is the one that a look-up finds. -/
theorem mem_iff_lookup {k : String} {v : α} :
    ∀ {es : List (String × α)}, Ascending es → ((k, v) ∈ es ↔ es.lookup k = some v)
  | [], _ => by simp
  | (k', v') :: rest, h => by
    obtain ⟨hk, hrest⟩ := List.pairwise_cons.mp h
    rw [List.mem_cons]
    by_cases he : k = k'
    · subst he
      rw [lookup_cons_eq]
      have hout : ¬ (k, v) ∈ rest := fun hv => String.lt_irrefl k (hk _ hv)
      simp [hout, eq_comm]
    · rw [lookup_cons_ne he, ← mem_iff_lookup hrest]
      simp [he]

end Assoc

namespace Table

variable {α : Type}

theorem mem_entries {t : Table α} {k : String} {v : α} :
    (k, v) ∈ t.entries ↔ t.get? k = some v :=
  Assoc.mem_iff_lookup t.ascending

theorem get?_emptyCollection (k : String) : (∅ : Table α).get? k = none := rfl

theorem ext_get? {s t : Table α} (h : ∀ k, s.get? k = t.get? k) : s = t := by
  have : Std.Irrefl fun a b : String × α => a.1 < b.1 := ⟨fun a => String.lt_irrefl a.1⟩
  have : Std.Antisymm fun a b : String × α => a.1 < b.1 :=
    ⟨fun a b hab hba => absurd hba (String.lt_asymm hab)⟩
  refine ext (s.ascending.eq_of_mem_iff t.ascending ?_)
  rintro ⟨k, v⟩
  rw [mem_entries, mem_entries, h k]

/-- Taking out a key that is not there changes nothing. -/
theorem erase_absent {t : Table α} {key : String} (h : t.get? key = none) : t.erase key = t := by
  refine ext_get? fun k => ?_
  rw [get?_erase]
  split
  · rename_i hk
    rw [hk, h]
  · rfl

/-- Putting in a value that is there changes nothing. -/
theorem insert_present {t : Table α} {key : String} {v : α} (h : t.get? key = some v) :
    t.insert key v = t := by
  refine ext_get? fun k => ?_
  rw [get?_insert]
  split
  · rename_i hk
    rw [hk, h]
  · rfl

theorem mem_values {t : Table α} {v : α} : v ∈ t.values ↔ ∃ k, t.get? k = some v := by
  simp only [values, List.mem_map, Prod.exists, mem_entries]
  constructor
  · intro hmem
    obtain ⟨k, v', h, rfl⟩ := hmem
    exact ⟨k, h⟩
  · intro hsome
    obtain ⟨k, h⟩ := hsome
    exact ⟨k, v, h, rfl⟩

theorem mem_keys {t : Table α} {k : String} : k ∈ t.keys ↔ ∃ v, t.get? k = some v := by
  simp only [keys, List.mem_map, Prod.exists, mem_entries]
  constructor
  · intro hmem
    obtain ⟨k', v, h, rfl⟩ := hmem
    exact ⟨v, h⟩
  · intro hsome
    obtain ⟨v, h⟩ := hsome
    exact ⟨k, v, h, rfl⟩

theorem contains_iff {t : Table α} {k : String} :
    t.contains k = true ↔ ∃ v, t.get? k = some v := by
  rw [contains, Option.isSome_iff_exists]

theorem keys_ascending (t : Table α) : t.keys.Pairwise (· < ·) :=
  List.pairwise_map.mpr t.ascending

theorem keys_nodup (t : Table α) : t.keys.Nodup := by
  refine t.keys_ascending.imp fun {a b} hlt => ?_
  rintro rfl
  exact String.lt_irrefl a hlt

theorem values_filter (t : Table α) (p : α → Bool) :
    (t.filter fun _ v => p v).values = t.values.filter p := by
  simp only [values, filter, List.filter_map]
  rfl

theorem get?_filter_eq_some {t : Table α} {p : α → Bool} {k : String} {v : α} :
    (t.filter fun _ v => p v).get? k = some v ↔ t.get? k = some v ∧ p v = true := by
  rw [get?_filter, Option.filter_eq_some_iff]

/-- The keys of a part of a table are looked up one by one in the order of the part. -/
theorem filterMap_get?_keys {t part : Table α}
    (hpart : ∀ k v, part.get? k = some v → t.get? k = some v) :
    part.keys.filterMap t.get? = part.values := by
  have hsub : ∀ es : List (String × α), (∀ e ∈ es, e ∈ part.entries) →
      (es.map Prod.fst).filterMap t.get? = es.map Prod.snd := by
    intro es hes
    induction es with
    | nil => rfl
    | cons e es ih =>
      have hget : t.get? e.1 = some e.2 :=
        hpart _ _ (mem_entries.mp (hes e List.mem_cons_self))
      rw [List.map_cons, List.filterMap_cons_some hget, List.map_cons,
        ih fun e' he' => hes e' (List.mem_cons_of_mem _ he')]
  exact hsub part.entries fun _ he => he

/-- Looking up the references of a set gives the values that pass a test, in the order of their
keys, if the set holds the keys of just these values. -/
theorem filterMap_get?_toList {t : Table α} {s : RefSet} {p : α → Bool}
    (h : ∀ k, k ∈ s ↔ ∃ v, t.get? k = some v ∧ p v = true) :
    s.toList.filterMap t.get? = t.values.filter p := by
  have hkeys : s.toList = (t.filter fun _ v => p v).keys := by
    refine s.ascending.eq_of_mem_iff (keys_ascending _) fun k => ?_
    rw [mem_keys]
    simp only [get?_filter_eq_some]
    exact h k
  rw [hkeys, filterMap_get?_keys fun k v hv => (get?_filter_eq_some.mp hv).1, values_filter]

end Table
end TransitPush
