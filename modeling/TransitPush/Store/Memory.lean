import TransitPush.Store.Basic
/-!
# The store in memory

Subscriptions by identifier, with three indexes: which subscriptions have a stop, a line or a
codespace. An index holds no empty set.

* `Index.add`, `Index.remove`: one identifier under one key.
* `MemoryStore.reload`: the indexes made anew from the subscriptions.
-/
namespace TransitPush

/-- The identifiers of the subscriptions that have a key. -/
abbrev Index := Table RefSet

namespace Index

def ids (ix : Index) (key : String) : RefSet :=
  (ix.get? key).getD ∅

/-- Puts an identifier under a key. Mirrors `insert_key`. -/
def add (id : SubscriptionId) (ix : Index) (key : String) : Index :=
  ix.insert key ((ix.ids key).insert id)

/-- Takes an identifier from a key, and the key away with the last one. Mirrors `remove_key`. -/
def remove (id : SubscriptionId) (ix : Index) (key : String) : Index :=
  match ix.get? key with
  | none => ix
  | some ids =>
    let left := ids.erase id
    if left.isEmpty then ix.erase key else ix.insert key left

end Index

structure MemoryStore where
  subscriptions : Table Subscription
  byStop : Index
  byLine : Index
  byCodespace : Index
deriving DecidableEq

namespace MemoryStore

def empty : MemoryStore := ⟨∅, ∅, ∅, ∅⟩

def index (m : MemoryStore) (s : Subscription) : MemoryStore :=
  { m with
    byStop := s.stops.foldl (Index.add s.id) m.byStop
    byLine := s.lineRefs.toList.foldl (Index.add s.id) m.byLine
    byCodespace := s.codespaces.toList.foldl (Index.add s.id) m.byCodespace }

def unindex (m : MemoryStore) (s : Subscription) : MemoryStore :=
  { m with
    byStop := s.stops.foldl (Index.remove s.id) m.byStop
    byLine := s.lineRefs.toList.foldl (Index.remove s.id) m.byLine
    byCodespace := s.codespaces.toList.foldl (Index.remove s.id) m.byCodespace }

/-- Puts a subscription under its identifier, without touching the indexes. -/
def put (m : MemoryStore) (s : Subscription) : MemoryStore :=
  { m with subscriptions := m.subscriptions.insert s.id s }

/-- Replaces a stored subscription by another with the same identifier. -/
def replace (m : MemoryStore) (before after : Subscription) : MemoryStore :=
  ((m.unindex before).index after).put after

/-- The stored subscriptions under a key of an index, by identifier. -/
def lookup (m : MemoryStore) (ix : Index) (key : String) : List Subscription :=
  (ix.ids key).toList.filterMap m.subscriptions.get?

/-- Stores a subscription under a fresh identifier. Mirrors `add`. -/
def add (m : MemoryStore) (id : SubscriptionId) (s : Subscription) : Subscription × MemoryStore :=
  let s := { s with id }
  (s, (m.index s).put s)

/-- Replaces the subscription that has the same identifier. Mirrors `update`. -/
def update (m : MemoryStore) (s : Subscription) : Except StoreError MemoryStore :=
  match m.subscriptions.get? s.id with
  | none => .error (.notFound s.id)
  | some before => .ok (m.replace before s)

/-- Changes a stored subscription in place by a function, which cannot change its identifier, and has
the indexes follow. Mirrors the `update_with` of the store in memory. -/
def modify (m : MemoryStore) (id : SubscriptionId) (f : Subscription → Subscription) :
    Option Subscription × MemoryStore :=
  match m.subscriptions.get? id with
  | none => (none, m)
  | some before =>
    let after := { f before with id := before.id }
    (some after, ((m.put after).unindex before).index after)

def remove (m : MemoryStore) (id : SubscriptionId) : Option Subscription × MemoryStore :=
  match m.subscriptions.get? id with
  | none => (none, m)
  | some s => (some s, { m.unindex s with subscriptions := m.subscriptions.erase id })

/-- Makes the indexes anew. Mirrors `reload`. -/
def reload (m : MemoryStore) : MemoryStore :=
  m.subscriptions.values.foldl index { empty with subscriptions := m.subscriptions }

instance : SubscriptionStore MemoryStore where
  add m id s := .ok (m.add id s)
  update := update
  remove m id := .ok (m.remove id)
  get? m id := m.subscriptions.get? id
  list m := m.subscriptions.values
  byStop m := m.lookup m.byStop
  byLine m := m.lookup m.byLine
  byCodespace m := m.lookup m.byCodespace
  size m := m.subscriptions.size
  modify m id f := .ok (m.modify id f)
  reload := reload

end MemoryStore
end TransitPush
