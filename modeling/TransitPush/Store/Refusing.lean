import TransitPush.Store.Memory
/-!
# A store that can refuse

A store that keeps its subscriptions in memory and may be told to refuse its writing operations, as a
store behind a network does at times. It has the required operations only, so all others are the
common ones.
-/
namespace TransitPush

inductive WriteOp where
  | add
  | update
  | remove
deriving DecidableEq

def WriteOp.name : WriteOp → String
  | .add => "add"
  | .update => "update"
  | .remove => "remove"

structure RefusingStore where
  inner : MemoryStore
  refused : List WriteOp
deriving DecidableEq

namespace RefusingStore

def empty : RefusingStore := ⟨.empty, []⟩

/-- Refuses an operation that is to be refused, before it looks at anything else. -/
def permit (r : RefusingStore) (op : WriteOp) : Except StoreError Unit :=
  if op ∈ r.refused then .error (.backend (op.name ++ " refused")) else .ok ()

instance : SubscriptionStore RefusingStore where
  add r id s := do
    r.permit .add
    let (s, inner) := r.inner.add id s
    .ok (s, { r with inner })
  update r s := do
    r.permit .update
    let inner ← r.inner.update s
    .ok { r with inner }
  remove r id := do
    r.permit .remove
    let (s, inner) := r.inner.remove id
    .ok (s, { r with inner })
  get? r := SubscriptionStore.get? r.inner
  list r := SubscriptionStore.list r.inner
  byStop r := SubscriptionStore.byStop r.inner
  byLine r := SubscriptionStore.byLine r.inner
  byCodespace r := SubscriptionStore.byCodespace r.inner

end RefusingStore
end TransitPush
