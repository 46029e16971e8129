import TransitPush.Delivery.Courier
import TransitPush.Proofs.Delivery.SweepRun
import TransitPush.Proofs.Registry.Effects
/-!
# Runs of a courier

What happens around the registry while pushes are answered: parcels are delivered, the store is
written, subscriptions are removed, sweeps are made, in any order.

* `Courier.registry_deliver_push`, `registry_deliver_notice`, `registry_sweep`: what each does to the
  registry.
* `Courier.answersTo`: the answers that the pushes to one subscription get in a run. Each of them
  settles the subscription (`Courier.settled_step`).
* `Courier.RunSpares`: nothing else in a run writes the subscription, so the registry keeps it as it
  is (`Courier.spares_step`).
-/
namespace TransitPush

/-! ## The registry in a sweep -/

namespace Registry

variable {r : Registry MemoryStore} {id : SubscriptionId}

def rescheduled (r : Registry MemoryStore) (planner : Planner) (now : Timestamp) :
    Registry MemoryStore :=
  { r with schedule :=
      (Sweeper.after ⟨planner, r.schedule⟩ ⟨SubscriptionStore.list r.store, now⟩).schedule }

theorem Spares.withoutAll (h : r.store.Consistent) {ss : List Subscription}
    (hids : ∀ s ∈ ss, s.id ≠ id) : r.Spares id (ss.foldl (fun r s => r.without s.id) r) := by
  induction ss generalizing r with
  | nil => exact .refl h
  | cons s ss ih =>
    obtain ⟨hs, hss⟩ := List.forall_mem_cons.mp hids
    have hfirst := Registry.Spares.without h hs
    exact hfirst.trans (ih hfirst.consistent hss)

theorem Spares.rescheduled (h : r.store.Consistent) (planner : Planner) (now : Timestamp) :
    r.Spares id (r.rescheduled planner now) := by
  refine ⟨h, rfl, rfl, fun hget hnone => ?_⟩
  have hunlisted : ∀ s ∈ SubscriptionStore.list r.store, s.id ≠ id := by
    rintro s hs rfl
    rw [h.own.mem_values.mp hs] at hget
    cases hget
  exact (Sweeper.entry_after_unlisted hunlisted).trans hnone

end Registry

/-! ## Operations and runs -/

/-- What happens to a courier. A write of the store stands for every change of subscriptions that the
registry makes when it saves them. -/
inductive CourierOp where
  | deliver (now : Timestamp) (p : Parcel)
  | write (op : StoreOp)
  | remove (id : SubscriptionId)
  | sweep (planner : Planner) (now : Timestamp)

namespace Courier

variable {σ τ : Type} [SubscriptionStore σ] [Transport τ]

/-- The courier after an operation; a removal that is refused leaves it as it was. -/
def step (c : Courier σ τ) : CourierOp → Courier σ τ
  | .deliver now p => c.deliver now p
  | .write op => { c with registry := { c.registry with store := (op.apply c.registry.store).2 } }
  | .remove id =>
    match c.registry.remove id with
    | .ok (_, registry) => { c with registry }
    | .error _ => c
  | .sweep planner now => (c.sweep planner now).2.2

def run (c : Courier σ τ) : List CourierOp → Courier σ τ
  | [] => c
  | op :: ops => (c.step op).run ops

/-- The answer to a push, if the operation is one to the subscription. -/
def answerTo (c : Courier σ τ) (id : SubscriptionId) : CourierOp → Option Answer
  | .deliver now (.push o) => if o.subscription.id = id then some (c.send (o.post now)).1 else none
  | _ => none

def answersTo (c : Courier σ τ) (id : SubscriptionId) : List CourierOp → List Answer
  | [] => []
  | op :: ops => (c.answerTo id op).toList ++ (c.step op).answersTo id ops

/-- The operation does not write the subscription: deliveries may be of pushes to it, any other
operation is about others, and the store adds under identifiers that are not in use. -/
def Spares (c : Courier σ τ) (id : SubscriptionId) : CourierOp → Prop
  | .deliver _ _ => True
  | .write op => op.subject ≠ some id ∧ op.FreshFor c.registry.store
  | .remove i => i ≠ id
  | .sweep planner now => ∀ s ∈ (c.sweep planner now).1.terminate, s.id ≠ id

def RunSpares (c : Courier σ τ) (id : SubscriptionId) : List CourierOp → Prop
  | [] => True
  | op :: ops => c.Spares id op ∧ (c.step op).RunSpares id ops

instance (c : Courier σ τ) (id : SubscriptionId) (op : CourierOp) : Decidable (c.Spares id op) :=
  match op with
  | .deliver _ _ => inferInstanceAs (Decidable True)
  | .write _ => inferInstanceAs (Decidable (_ ∧ _))
  | .remove _ => inferInstanceAs (Decidable (_ ≠ _))
  | .sweep _ _ => inferInstanceAs (Decidable (∀ s ∈ _, _))

instance decidableRunSpares (c : Courier σ τ) (id : SubscriptionId) :
    (ops : List CourierOp) → Decidable (c.RunSpares id ops)
  | [] => inferInstanceAs (Decidable True)
  | op :: ops =>
    have := decidableRunSpares (c.step op) id ops
    inferInstanceAs (Decidable (_ ∧ _))

/-! ## The registry after a delivery -/

omit [SubscriptionStore σ] in
theorem registry_send (c : Courier σ τ) (post : Except CodecError Post) :
    (c.send post).2.registry = c.registry := by
  cases post <;> rfl

omit [Transport τ] in
theorem registry_settle (c : Courier σ τ) (id : SubscriptionId) (o : Outcome) :
    (c.settle id o).registry = c.registry.settled id o := by
  cases o with
  | delivered =>
    rw [settle, Registry.settled]
    cases c.registry.recordSuccess id <;> rfl
  | reset =>
    rw [settle, Registry.settled]
    cases c.registry.remove id <;> rfl
  | failed status =>
    rw [settle, Registry.settled]
    split
    · rename_i h
      rw [h]
      rfl
    · rename_i h
      rw [h]

theorem registry_deliver_push (c : Courier σ τ) (now : Timestamp) (o : Outgoing) :
    (c.deliver now (.push o)).registry =
      c.registry.settled o.subscription.id (.ofAnswer (c.send (o.post now)).1) := by
  refine (registry_settle _ _ _).trans ?_
  exact congrArg (fun r : Registry σ => r.settled _ _) (registry_send c (o.post now))

theorem registry_deliver_notice (c : Courier σ τ) (now : Timestamp) (kind : NoticeKind)
    (address : String) (envelope : Envelope) :
    (c.deliver now (.notice kind address envelope)).registry = c.registry := by
  rw [deliver]
  split
  rename_i sent hsent
  exact (congrArg (fun s : Answer × Courier σ τ => s.2.registry) hsent.symm).trans
    (registry_send c _)

/-! ## The registry after a sweep -/

omit [Transport τ] in
theorem registry_terminateAll (c : Courier MemoryStore τ) (now : Timestamp)
    (ss : List Subscription) :
    (ss.foldl (fun c s => c.terminate now s) c).registry =
      ss.foldl (fun r s => r.without s.id) c.registry := by
  induction ss generalizing c with
  | nil => rfl
  | cons s ss ih => exact ih (c.terminate now s)

omit [Transport τ] in
/-- A sweep writes the schedule as its plan says, and removes whom the plan terminates. -/
theorem registry_sweep (c : Courier MemoryStore τ) (planner : Planner) (now : Timestamp) :
    (c.sweep planner now).2.2.registry =
      (c.sweep planner now).1.terminate.foldl (fun r s => r.without s.id)
        (c.registry.rescheduled planner now) :=
  registry_terminateAll _ now _

/-! ## Operations about others -/

variable {c : Courier MemoryStore τ} {id : SubscriptionId}

/-- What is neither a write of a subscription nor an answer to a push to it, leaves it as it is. -/
theorem spares_step (h : c.registry.store.Consistent) {op : CourierOp} (hspares : c.Spares id op)
    (hanswer : c.answerTo id op = none) : c.registry.Spares id (c.step op).registry := by
  cases op with
  | deliver now p =>
    cases p with
    | push o =>
      have hne : o.subscription.id ≠ id := fun heq => by
        rw [answerTo, if_pos heq] at hanswer
        cases hanswer
      rw [step, registry_deliver_push]
      exact .settled h hne _
    | notice kind address envelope =>
      rw [step, registry_deliver_notice]
      exact .refl h
  | write op => exact .write h op hspares.2 hspares.1
  | remove i => exact .without h hspares
  | sweep planner now =>
    rw [step, registry_sweep]
    have hentries := @Registry.Spares.rescheduled _ id h planner now
    exact hentries.trans (.withoutAll hentries.consistent hspares)

/-- An operation that answers a push to a subscription settles it. -/
theorem settled_step {op : CourierOp} {a : Answer} (hanswer : c.answerTo id op = some a) :
    (c.step op).registry = c.registry.settled id (.ofAnswer a) := by
  unfold answerTo at hanswer
  split at hanswer
  · rename_i now o
    split at hanswer
    · rename_i hid
      cases hanswer
      rw [step, registry_deliver_push, hid]
    · cases hanswer
  · cases hanswer

end Courier
end TransitPush
