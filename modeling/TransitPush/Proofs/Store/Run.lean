import TransitPush.Store.Memory
/-!
# Runs of a store

The operations that change a store, what each answers, and runs of them. A store gives every
subscription that it adds an identifier which no stored subscription has: `StoreOp.Fresh` says that
of a run.
-/
namespace TransitPush

/-- The operations that change a store. `modify` takes any change, also one of the identifier. -/
inductive StoreOp where
  | add (id : SubscriptionId) (s : Subscription)
  | update (s : Subscription)
  | modify (id : SubscriptionId) (f : Subscription → Subscription)
  | remove (id : SubscriptionId)
  | reload

inductive StoreAnswer where
  | stored (s : Subscription)
  | found (s : Option Subscription)
  | done
  | refused (e : StoreError)
deriving DecidableEq

namespace StoreOp

def subject : StoreOp → Option SubscriptionId
  | add id _ => some id
  | update s => some s.id
  | modify id _ => some id
  | remove id => some id
  | reload => none

variable {σ : Type} [SubscriptionStore σ]

/-- What an operation answers, and the store after it. -/
def apply (store : σ) : StoreOp → StoreAnswer × σ
  | add id s =>
    match SubscriptionStore.add store id s with
    | .ok (s, store) => (.stored s, store)
    | .error e => (.refused e, store)
  | update s =>
    match SubscriptionStore.update store s with
    | .ok store => (.done, store)
    | .error e => (.refused e, store)
  | modify id f =>
    match SubscriptionStore.modify store id f with
    | .ok (s, store) => (.found s, store)
    | .error e => (.refused e, store)
  | remove id =>
    match SubscriptionStore.remove store id with
    | .ok (s, store) => (.found s, store)
    | .error e => (.refused e, store)
  | reload => (.done, SubscriptionStore.reload store)

def run (store : σ) : List StoreOp → σ
  | [] => store
  | op :: ops => run (op.apply store).2 ops

def answers (store : σ) : List StoreOp → List StoreAnswer
  | [] => []
  | op :: ops => (op.apply store).1 :: answers (op.apply store).2 ops

/-- What is added gets an identifier that is not in use. -/
def FreshFor (store : σ) : StoreOp → Prop
  | add id _ => SubscriptionStore.get? store id = none
  | _ => True

/-- Every operation of a run adds under an identifier that is not in use. -/
def Fresh (store : σ) : List StoreOp → Prop
  | [] => True
  | op :: ops => op.FreshFor store ∧ Fresh (op.apply store).2 ops

theorem run_append {store : σ} {ops later : List StoreOp} :
    run store (ops ++ later) = run (run store ops) later := by
  induction ops generalizing store with
  | nil => rfl
  | cons op ops ih => exact ih

theorem fresh_append {store : σ} {ops later : List StoreOp} :
    Fresh store (ops ++ later) ↔ Fresh store ops ∧ Fresh (run store ops) later := by
  induction ops generalizing store with
  | nil => exact (Iff.of_eq (true_and _)).symm
  | cons op ops ih => exact (and_congr_right fun _ => ih).trans and_assoc.symm

instance (store : σ) (op : StoreOp) : Decidable (op.FreshFor store) :=
  match op with
  | add _ _ => inferInstanceAs (Decidable (_ = none))
  | update _ | modify _ _ | remove _ | reload => inferInstanceAs (Decidable True)

instance decidableFresh (store : σ) : (ops : List StoreOp) → Decidable (Fresh store ops)
  | [] => inferInstanceAs (Decidable True)
  | op :: ops =>
    have := decidableFresh (op.apply store).2 ops
    inferInstanceAs (Decidable (_ ∧ _))

end StoreOp
end TransitPush
