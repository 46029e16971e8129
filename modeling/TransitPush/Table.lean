/-!
# Tables and sets of references

A `Table` holds one value for each of its keys, a `RefSet` holds references. Both keep their keys in
ascending order of code points, so what they hold determines them: two tables with the same entries
are equal, and they list them in one order.

* `Table.get?_insert`, `Table.get?_erase`, `Table.get?_filter`: what each operation does to look-ups.
* `RefSet.mem_insert`, `RefSet.mem_erase`, `RefSet.mem_ofList`: what each does to membership.
-/
namespace TransitPush

theorem string_lt_or_gt {a b : String} (h : ¬ a < b) (hne : a ≠ b) : b < a := by
  rcases String.le_total a b with hab | hba
  · exact absurd (String.le_antisymm hab (String.not_lt.mp h)) hne
  · exact String.not_le.mp fun hab => hne (String.le_antisymm hab hba)

/-! ## Tables -/

namespace Assoc

variable {α : Type}

/-- An association list in ascending order with one entry put in; a key that is there already takes
the new value. -/
def put (key : String) (value : α) : List (String × α) → List (String × α)
  | [] => [(key, value)]
  | (k, v) :: rest =>
    if key < k then (key, value) :: (k, v) :: rest
    else if key = k then (key, value) :: rest
    else (k, v) :: put key value rest

def Ascending (es : List (String × α)) : Prop :=
  es.Pairwise fun a b => a.1 < b.1

theorem mem_put {key : String} {value : α} {e : String × α} :
    ∀ {es : List (String × α)}, e ∈ put key value es → e = (key, value) ∨ e ∈ es
  | [], h => by simpa [put] using h
  | (k, v) :: rest, h => by
    unfold put at h
    split at h
    · simpa using h
    · split at h
      · rcases List.mem_cons.mp h with h | h
        · exact .inl h
        · exact .inr (List.mem_cons_of_mem _ h)
      · rcases List.mem_cons.mp h with h | h
        · exact .inr (h ▸ List.mem_cons_self)
        · exact (mem_put h).imp_right (List.mem_cons_of_mem _)

theorem ascending_put {key : String} {value : α} :
    ∀ {es : List (String × α)}, Ascending es → Ascending (put key value es)
  | [], _ => List.pairwise_singleton _ _
  | (k, v) :: rest, h => by
    have ⟨hk, hrest⟩ := List.pairwise_cons.mp h
    unfold put
    split
    · rename_i hlt
      refine List.pairwise_cons.mpr ⟨fun e he => ?_, h⟩
      rcases List.mem_cons.mp he with rfl | he
      · exact hlt
      · exact String.lt_trans hlt (hk e he)
    · split
      · rename_i heq
        subst heq
        exact List.pairwise_cons.mpr ⟨hk, hrest⟩
      · rename_i hlt hne
        refine List.pairwise_cons.mpr ⟨fun e he => ?_, ascending_put hrest⟩
        rcases mem_put he with rfl | he
        · exact string_lt_or_gt hlt hne
        · exact hk e he

theorem lookup_cons_ne {k key : String} {value : α} {es : List (String × α)} (h : k ≠ key) :
    ((key, value) :: es).lookup k = es.lookup k := by
  rw [List.lookup_cons, beq_eq_false_iff_ne.mpr h]

theorem lookup_cons_eq {key : String} {value : α} {es : List (String × α)} :
    ((key, value) :: es).lookup key = some value := by
  rw [List.lookup_cons, beq_self_eq_true]

theorem lookup_put {key : String} {value : α} (k : String) :
    ∀ {es : List (String × α)},
      (put key value es).lookup k = if k = key then some value else es.lookup k
  | [] => by
    split
    · rename_i h; subst h; exact lookup_cons_eq
    · rename_i h; exact lookup_cons_ne h
  | (k', v) :: rest => by
    unfold put
    split
    · split
      · rename_i h; subst h; exact lookup_cons_eq
      · rename_i h; exact lookup_cons_ne h
    · split
      · rename_i heq
        subst heq
        split
        · rename_i h; subst h; exact lookup_cons_eq
        · rename_i h; rw [lookup_cons_ne h, lookup_cons_ne h]
      · rename_i hne
        by_cases hk : k = k'
        · subst hk
          rw [lookup_cons_eq, lookup_cons_eq, if_neg (Ne.symm hne)]
        · rw [lookup_cons_ne hk, lookup_cons_ne hk, lookup_put k]

end Assoc

/-- One value for each key, in ascending order of the keys. -/
structure Table (α : Type) where
  entries : List (String × α)
  ascending : Assoc.Ascending entries

namespace Table

variable {α : Type}

theorem ext {s t : Table α} (h : s.entries = t.entries) : s = t := by
  cases s; cases t; cases h; rfl

instance [DecidableEq α] : DecidableEq (Table α) := fun s t =>
  if h : s.entries = t.entries then isTrue (ext h) else isFalse fun e => h (e ▸ rfl)

def empty : Table α := ⟨[], .nil⟩

instance : EmptyCollection (Table α) := ⟨empty⟩
instance : Inhabited (Table α) := ⟨empty⟩

def get? (t : Table α) (key : String) : Option α :=
  t.entries.lookup key

def contains (t : Table α) (key : String) : Bool :=
  (t.get? key).isSome

/-- The table with a value put under a key, in place of one that is there. -/
def insert (t : Table α) (key : String) (value : α) : Table α :=
  ⟨Assoc.put key value t.entries, Assoc.ascending_put t.ascending⟩

def filter (t : Table α) (p : String → α → Bool) : Table α :=
  ⟨t.entries.filter fun e => p e.1 e.2, t.ascending.sublist List.filter_sublist⟩

def erase (t : Table α) (key : String) : Table α :=
  t.filter fun k _ => k ≠ key

/-- The table with a key set to a value, or taken out. -/
def set (t : Table α) (key : String) : Option α → Table α
  | some value => t.insert key value
  | none => t.erase key

def size (t : Table α) : Nat :=
  t.entries.length

def isEmpty (t : Table α) : Bool :=
  t.entries.isEmpty

def keys (t : Table α) : List String :=
  t.entries.map Prod.fst

/-- The values in the order of their keys. -/
def values (t : Table α) : List α :=
  t.entries.map Prod.snd

/-- The table of a list of entries, the last of each key. -/
def ofList (es : List (String × α)) : Table α :=
  es.foldl (fun t e => t.insert e.1 e.2) empty

@[simp] theorem get?_empty (k : String) : (empty : Table α).get? k = none := rfl

theorem get?_insert (t : Table α) (key k : String) (value : α) :
    (t.insert key value).get? k = if k = key then some value else t.get? k :=
  Assoc.lookup_put k

theorem lookup_eq_none {k : String} {es : List (String × α)} (h : ∀ e ∈ es, k < e.1) :
    es.lookup k = none := by
  induction es with
  | nil => rfl
  | cons e es ih =>
    have hk : k ≠ e.1 := fun he => String.lt_irrefl k (by
      have := h e List.mem_cons_self
      rwa [← he] at this)
    exact (Assoc.lookup_cons_ne hk).trans (ih fun e' he' => h e' (List.mem_cons_of_mem _ he'))

theorem lookup_filter {p : String → α → Bool} (k : String) :
    ∀ {es : List (String × α)}, Assoc.Ascending es →
      (es.filter fun e => p e.1 e.2).lookup k = (es.lookup k).filter (p k)
  | [], _ => rfl
  | (k', v) :: rest, h => by
    have ⟨hk, hrest⟩ := List.pairwise_cons.mp h
    have ih := lookup_filter (p := p) k hrest
    rw [List.filter_cons]
    by_cases he : k = k'
    · subst he
      rw [Assoc.lookup_cons_eq, Option.filter_some]
      split
      · exact Assoc.lookup_cons_eq
      · rw [ih, lookup_eq_none hk]; rfl
    · rw [Assoc.lookup_cons_ne he]
      split
      · rw [Assoc.lookup_cons_ne he, ih]
      · exact ih

theorem get?_filter (t : Table α) (p : String → α → Bool) (k : String) :
    (t.filter p).get? k = (t.get? k).filter (p k) :=
  lookup_filter k t.ascending

theorem get?_erase (t : Table α) (key k : String) :
    (t.erase key).get? k = if k = key then none else t.get? k := by
  rw [erase, get?_filter]
  by_cases h : k = key
  · subst h; cases t.get? k <;> simp
  · cases t.get? k <;> simp [h]

theorem get?_set (t : Table α) (key k : String) (value : Option α) :
    (t.set key value).get? k = if k = key then value else t.get? k := by
  cases value with
  | none => exact t.get?_erase key k
  | some v => exact t.get?_insert key k v

end Table

/-! ## Sets of references -/

/-- References in ascending order, each once. -/
structure RefSet where
  refs : List String
  ascending : refs.Pairwise (· < ·)
deriving DecidableEq

namespace RefSet

/-- A list in ascending order with one reference put in, if it is not there. -/
def put (ref : String) : List String → List String
  | [] => [ref]
  | r :: rest =>
    if ref < r then ref :: r :: rest
    else if ref = r then r :: rest
    else r :: put ref rest

theorem mem_put {ref r : String} : ∀ {rs : List String}, r ∈ put ref rs ↔ r = ref ∨ r ∈ rs
  | [] => by simp [put]
  | r' :: rest => by
    unfold put
    split
    · simp
    · split
      · rename_i heq
        subst heq
        simp
      · simp only [List.mem_cons, @mem_put ref r rest]
        exact or_left_comm

theorem ascending_put {ref : String} :
    ∀ {rs : List String}, rs.Pairwise (· < ·) → (put ref rs).Pairwise (· < ·)
  | [], _ => List.pairwise_singleton _ _
  | r :: rest, h => by
    have ⟨hr, hrest⟩ := List.pairwise_cons.mp h
    unfold put
    split
    · rename_i hlt
      refine List.pairwise_cons.mpr ⟨fun x hx => ?_, h⟩
      rcases List.mem_cons.mp hx with rfl | hx
      · exact hlt
      · exact String.lt_trans hlt (hr x hx)
    · split
      · exact h
      · rename_i hlt hne
        refine List.pairwise_cons.mpr ⟨fun x hx => ?_, ascending_put hrest⟩
        rcases mem_put.mp hx with rfl | hx
        · exact string_lt_or_gt hlt hne
        · exact hr x hx

def empty : RefSet := ⟨[], .nil⟩

instance : EmptyCollection RefSet := ⟨empty⟩
instance : Inhabited RefSet := ⟨empty⟩

instance : Membership String RefSet := ⟨fun s r => r ∈ s.refs⟩

instance (r : String) (s : RefSet) : Decidable (r ∈ s) :=
  inferInstanceAs (Decidable (r ∈ s.refs))

def insert (s : RefSet) (ref : String) : RefSet :=
  ⟨put ref s.refs, ascending_put s.ascending⟩

def filter (s : RefSet) (p : String → Bool) : RefSet :=
  ⟨s.refs.filter p, s.ascending.sublist List.filter_sublist⟩

def erase (s : RefSet) (ref : String) : RefSet :=
  s.filter (· ≠ ref)

def ofList (rs : List String) : RefSet :=
  rs.foldl insert empty

def toList (s : RefSet) : List String :=
  s.refs

def isEmpty (s : RefSet) : Bool :=
  s.refs.isEmpty

def insertAll (s : RefSet) (rs : List String) : RefSet :=
  rs.foldl insert s

theorem mem_insert {s : RefSet} {ref r : String} : r ∈ s.insert ref ↔ r = ref ∨ r ∈ s :=
  mem_put

theorem mem_filter {s : RefSet} {p : String → Bool} {r : String} :
    r ∈ s.filter p ↔ r ∈ s ∧ p r = true :=
  List.mem_filter

theorem mem_erase {s : RefSet} {ref r : String} : r ∈ s.erase ref ↔ r ∈ s ∧ r ≠ ref := by
  rw [erase, mem_filter]; simp

theorem mem_insertAll {r : String} :
    ∀ {rs : List String} {s : RefSet}, r ∈ s.insertAll rs ↔ r ∈ rs ∨ r ∈ s
  | [], s => by simp [insertAll]
  | r' :: rest, s => by
    rw [show s.insertAll (r' :: rest) = (s.insert r').insertAll rest from rfl,
      @mem_insertAll r rest, mem_insert, List.mem_cons]
    exact or_left_comm.trans or_assoc.symm

theorem mem_ofList {rs : List String} {r : String} : r ∈ ofList rs ↔ r ∈ rs := by
  rw [show ofList rs = empty.insertAll rs from rfl, mem_insertAll]
  exact or_iff_left (List.not_mem_nil)

end RefSet
end TransitPush
