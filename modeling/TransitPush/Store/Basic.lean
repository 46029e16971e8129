import TransitPush.Subscription
/-!
# Stores of subscriptions

What a store of subscriptions can do. A store must add, replace, remove and find subscriptions; the
other operations have definitions in terms of these, which a store may replace by better ones.
-/
namespace TransitPush

inductive StoreError where
  | notFound (id : SubscriptionId)
  | backend (message : String)
deriving DecidableEq

def StoreError.message : StoreError → String
  | .notFound id => "Subscription not found: " ++ id
  | .backend message => "Storage backend error: " ++ message

/-- The common way to change a stored subscription by a function: it is looked up, changed and put
back. Who goes between the two is no error. Mirrors the `update_with` that a store has by default. -/
def modifyByUpdate {σ : Type} (get? : σ → SubscriptionId → Option Subscription)
    (update : σ → Subscription → Except StoreError σ) (store : σ) (id : SubscriptionId)
    (f : Subscription → Subscription) : Except StoreError (Option Subscription × σ) :=
  match get? store id with
  | none => .ok (none, store)
  | some s =>
    match update store (f s) with
    | .ok store => .ok (some (f s), store)
    | .error (.notFound _) => .ok (none, store)
    | .error e => .error e

/-- The operations of a store. `add` is given the identifier that the subscription gets; `modify`
answers `none` if no subscription has the identifier. -/
class SubscriptionStore (σ : Type) where
  add : σ → SubscriptionId → Subscription → Except StoreError (Subscription × σ)
  update : σ → Subscription → Except StoreError σ
  remove : σ → SubscriptionId → Except StoreError (Option Subscription × σ)
  get? : σ → SubscriptionId → Option Subscription
  list : σ → List Subscription
  byStop : σ → String → List Subscription
  byLine : σ → String → List Subscription
  byCodespace : σ → String → List Subscription
  size : σ → Nat := fun store => (list store).length
  byName? : σ → String → Option Subscription := fun store name =>
    (list store).find? fun s => s.name = name
  modify : σ → SubscriptionId → (Subscription → Subscription) →
      Except StoreError (Option Subscription × σ) := modifyByUpdate get? update
  reload : σ → σ := id

end TransitPush
