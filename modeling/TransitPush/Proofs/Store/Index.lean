import TransitPush.Proofs.Table
import TransitPush.Store.Memory
/-!
# Indexes of a store

An index goes with subscriptions by identifier if it lists each of them under each of its keys, lists
nothing else, and keeps no empty set. Which keys a subscription has is a parameter, so one argument
serves the stops, the lines and the codespaces.

* `Index.Lists.enter`, `Index.Lists.replace`, `Index.Lists.leave`: what keeps an index in step with a
  subscription that comes, changes or goes.
* `Index.Lists.unique`: the subscriptions determine the index.
* `Index.Lists.lookup`: asking the index gives what looking through all subscriptions gives.
-/
namespace TransitPush

def OwnIds (subs : Table Subscription) : Prop :=
  ∀ id s, subs.get? id = some s → s.id = id

theorem OwnIds.insert {subs : Table Subscription} (h : OwnIds subs) (s : Subscription) :
    OwnIds (subs.insert s.id s) := by
  intro id t hget
  rw [Table.get?_insert] at hget
  split at hget
  · rename_i hid
    cases hget
    exact hid.symm
  · exact h id t hget

theorem OwnIds.erase {subs : Table Subscription} (h : OwnIds subs) (id : SubscriptionId) :
    OwnIds (subs.erase id) := by
  intro i t hget
  rw [Table.get?_erase] at hget
  split at hget
  · cases hget
  · exact h i t hget

theorem OwnIds.mem_values {subs : Table Subscription} (h : OwnIds subs) {s : Subscription} :
    s ∈ subs.values ↔ subs.get? s.id = some s := by
  rw [Table.mem_values]
  constructor
  · intro hused
    obtain ⟨id, hget⟩ := hused
    rwa [h id s hget]
  · exact fun hget => ⟨s.id, hget⟩

theorem OwnIds.map_id_values {subs : Table Subscription} (h : OwnIds subs) :
    subs.values.map Subscription.id = subs.keys := by
  rw [Table.values, Table.keys, List.map_map]
  exact List.map_congr_left fun e he => h e.1 e.2 (Table.mem_entries.mp he)

namespace Index

variable {ix : Index} {id i : SubscriptionId} {key k : String}

/-! ## One identifier under one key -/

theorem mem_ids : i ∈ ix.ids k ↔ ∃ ids, ix.get? k = some ids ∧ i ∈ ids := by
  unfold ids
  cases ix.get? k with
  | none => simp [RefSet.not_mem_empty]
  | some found => simp

theorem get?_add : (ix.add id key).get? k =
    if k = key then some ((ix.ids key).insert id) else ix.get? k :=
  ix.get?_insert key k _

theorem get?_remove : (ix.remove id key).get? k =
    if k = key then
      if ((ix.ids key).erase id).isEmpty then none else some ((ix.ids key).erase id)
    else ix.get? k := by
  unfold remove ids
  cases hget : ix.get? key with
  | none =>
    dsimp only [Option.getD_none]
    split
    · rename_i hk
      rw [hk, hget]
      rfl
    · rfl
  | some found =>
    dsimp only [Option.getD_some]
    split
    · exact Table.get?_erase ix key k
    · exact Table.get?_insert ix key k _

theorem mem_ids_add : i ∈ (ix.add id key).ids k ↔ i ∈ ix.ids k ∨ i = id ∧ k = key := by
  rw [mem_ids, get?_add]
  by_cases hk : k = key
  · subst hk
    simp [RefSet.mem_insert, or_comm]
  · simp [hk, mem_ids]

theorem mem_ids_remove : i ∈ (ix.remove id key).ids k ↔ i ∈ ix.ids k ∧ ¬ (i = id ∧ k = key) := by
  rw [mem_ids, get?_remove]
  by_cases hk : k = key
  · subst hk
    rw [if_pos rfl]
    split
    · rename_i hempty
      have hno := RefSet.isEmpty_iff.mp hempty i
      rw [RefSet.mem_erase] at hno
      simpa using hno
    · simp [RefSet.mem_erase]
  · simp [hk, mem_ids]

/-! ## No empty sets -/

def Tidy (ix : Index) : Prop :=
  ∀ key ids, ix.get? key = some ids → ids.isEmpty = false

theorem Tidy.empty : Tidy ∅ := fun key ids h => by
  rw [Table.get?_emptyCollection] at h; cases h

theorem Tidy.add (h : ix.Tidy) : (ix.add id key).Tidy := by
  intro k found hk
  rw [get?_add] at hk
  split at hk
  · cases hk
    exact RefSet.isEmpty_eq_false.mpr ⟨id, RefSet.mem_insert.mpr (.inl rfl)⟩
  · exact h k found hk

theorem Tidy.remove (h : ix.Tidy) : (ix.remove id key).Tidy := by
  intro k found hk
  rw [get?_remove] at hk
  split at hk
  · split at hk
    · cases hk
    · rename_i hleft
      cases hk
      simpa using hleft
  · exact h k found hk

/-- Without empty sets an index is determined by who is listed where. -/
theorem Tidy.ext {iy : Index} (hx : ix.Tidy) (hy : iy.Tidy)
    (h : ∀ k i, i ∈ ix.ids k ↔ i ∈ iy.ids k) : ix = iy := by
  have hids : ∀ k, ix.ids k = iy.ids k := fun k => RefSet.ext_mem (h k)
  have hnone : ∀ {a b : Index} {k}, b.Tidy → a.ids k = b.ids k → a.get? k = none →
      b.get? k = none := by
    intro a b k hb hab ha
    cases hget : b.get? k with
    | none => rfl
    | some found =>
      have hfound : found = ∅ := by simpa [ids, ha, hget] using hab.symm
      have := hb k found hget
      rw [hfound] at this
      cases this
  refine Table.ext_get? fun k => ?_
  cases hget : ix.get? k with
  | none => rw [hnone hy (hids k) hget]
  | some found =>
    cases hget' : iy.get? k with
    | none => rw [hnone hx (hids k).symm hget'] at hget; cases hget
    | some found' =>
      have := hids k
      simp only [ids, hget, hget', Option.getD_some] at this
      rw [this]

/-! ## One identifier under several keys -/

theorem mem_ids_addAll {keys : List String} :
    i ∈ (keys.foldl (Index.add id) ix).ids k ↔ i ∈ ix.ids k ∨ i = id ∧ k ∈ keys := by
  induction keys generalizing ix with
  | nil => simp
  | cons key rest ih =>
    rw [List.foldl_cons, ih, mem_ids_add, List.mem_cons, or_assoc, ← and_or_left]

theorem mem_ids_removeAll {keys : List String} :
    i ∈ (keys.foldl (Index.remove id) ix).ids k ↔ i ∈ ix.ids k ∧ ¬ (i = id ∧ k ∈ keys) := by
  induction keys generalizing ix with
  | nil => simp
  | cons key rest ih =>
    rw [List.foldl_cons, ih, mem_ids_remove, List.mem_cons, and_assoc, ← not_or, ← and_or_left]

theorem Tidy.addAll {keys : List String} (h : ix.Tidy) :
    (keys.foldl (Index.add id) ix).Tidy := by
  induction keys generalizing ix with
  | nil => exact h
  | cons key rest ih => exact ih h.add

theorem Tidy.removeAll {keys : List String} (h : ix.Tidy) :
    (keys.foldl (Index.remove id) ix).Tidy := by
  induction keys generalizing ix with
  | nil => exact h
  | cons key rest ih => exact ih h.remove

/-! ## In step with the subscriptions -/

/-- The index lists each of the subscriptions under each of its keys, and nothing else. -/
structure Lists (ix : Index) (keys : Subscription → List String) (subs : Table Subscription) :
    Prop where
  mem : ∀ key id, id ∈ ix.ids key ↔ ∃ s, subs.get? id = some s ∧ key ∈ keys s
  tidy : ix.Tidy

namespace Lists

variable {keys : Subscription → List String} {subs : Table Subscription} {s before : Subscription}

theorem empty : Lists ∅ keys ∅ where
  mem key id := by simp [ids, Table.get?_emptyCollection, RefSet.not_mem_empty]
  tidy := .empty

/-- A subscription that comes is entered under its keys. -/
theorem enter (h : Lists ix keys subs) (hfresh : subs.get? id = none) :
    Lists ((keys s).foldl (Index.add id) ix) keys (subs.insert id s) where
  mem k i := by
    rw [mem_ids_addAll, h.mem, Table.get?_insert]
    by_cases hi : i = id
    · subst hi
      simp [hfresh]
    · simp [hi]
  tidy := h.tidy.addAll

/-- A subscription that goes is taken out under its keys. -/
theorem leave (h : Lists ix keys subs) (hget : subs.get? id = some s) :
    Lists ((keys s).foldl (Index.remove id) ix) keys (subs.erase id) where
  mem k i := by
    rw [mem_ids_removeAll, h.mem, Table.get?_erase]
    by_cases hi : i = id
    · subst hi
      simp [hget]
    · simp [hi]
  tidy := h.tidy.removeAll

/-- A subscription that changes is taken out under its old keys and entered under the new ones,
which may overlap. -/
theorem replace (h : Lists ix keys subs) (hget : subs.get? id = some before) :
    Lists ((keys s).foldl (Index.add id) ((keys before).foldl (Index.remove id) ix)) keys
      (subs.insert id s) := by
  have hgone := (h.leave hget).enter (s := s) (by rw [Table.get?_erase, if_pos rfl])
  have hsame : (subs.erase id).insert id s = subs.insert id s :=
    Table.ext_get? fun k => by
      simp only [Table.get?_insert, Table.get?_erase]
      split <;> rfl
  rwa [hsame] at hgone

/-- An index made anew from the subscriptions, each of which carries its own identifier. -/
theorem rebuild (hown : OwnIds subs) :
    Lists (subs.values.foldl (fun ix s => (keys s).foldl (Index.add s.id) ix) ∅) keys subs := by
  have hmem : ∀ (ss : List Subscription) (ix : Index) (k : String) (i : SubscriptionId),
      i ∈ (ss.foldl (fun ix s => (keys s).foldl (Index.add s.id) ix) ix).ids k ↔
        i ∈ ix.ids k ∨ ∃ s ∈ ss, i = s.id ∧ k ∈ keys s := by
    intro ss
    induction ss with
    | nil => simp
    | cons s rest ih =>
      intro ix k i
      rw [List.foldl_cons, ih, mem_ids_addAll, or_assoc]
      simp
  have htidy : ∀ (ss : List Subscription) (ix : Index), ix.Tidy →
      (ss.foldl (fun ix s => (keys s).foldl (Index.add s.id) ix) ix).Tidy := by
    intro ss
    induction ss with
    | nil => exact fun _ h => h
    | cons s rest ih => exact fun _ h => ih _ h.addAll
  refine ⟨fun k i => ?_, htidy _ _ .empty⟩
  rw [hmem, or_iff_right (by simp [ids, Table.get?_emptyCollection, RefSet.not_mem_empty])]
  constructor
  · intro hlisted
    obtain ⟨s, hs, rfl, hk⟩ := hlisted
    exact ⟨s, hown.mem_values.mp hs, hk⟩
  · intro hstored
    obtain ⟨s, hget, hk⟩ := hstored
    exact ⟨s, Table.mem_values.mpr ⟨i, hget⟩, (hown i s hget).symm, hk⟩

theorem unique {iy : Index} (hx : Lists ix keys subs) (hy : Lists iy keys subs) : ix = iy :=
  hx.tidy.ext hy.tidy fun k i => (hx.mem k i).trans (hy.mem k i).symm

theorem lookup (h : Lists ix keys subs) (key : String) :
    (ix.ids key).toList.filterMap subs.get? = subs.values.filter fun s => key ∈ keys s :=
  Table.filterMap_get?_toList fun id => by simpa using h.mem key id

end Lists
end Index
end TransitPush
