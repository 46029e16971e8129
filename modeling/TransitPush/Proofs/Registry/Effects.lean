import TransitPush.Delivery.Answer
import TransitPush.Proofs.Store.Mutation
import TransitPush.Registry
/-!
# What the registry does to one subscription

Over the store in memory the registry writes by the operations of the store alone, and the store
refuses none of them. So what an operation means to one subscription is what it means in the table of
subscriptions: it is replaced, it is removed, or it is somebody else who is written.

* `Registry.settled_delivered`, `settled_reset`, `settled_failed`, `settled_gone`: the answers to pushes
  as writes.
* `Registry.Spares`: an operation about others leaves a subscription as it is, stored or not.
-/
namespace TransitPush

namespace Subscription

/-- Below its greatest value the counter goes up by one. -/
theorem countFailure_eq {s : Subscription} (h : s.failedPushes.toNat + 1 < UInt32.size) :
    s.countFailure = { s with failedPushes := s.failedPushes + 1 } :=
  if_pos h

theorem countFailure_id (s : Subscription) : s.countFailure.id = s.id := by
  unfold countFailure
  split <;> rfl

end Subscription

namespace Registry

/-! ## Answers to pushes as writes -/

section
variable {σ : Type} [SubscriptionStore σ]

/-- The registry after the outcome of a push to a subscription. -/
def settled (r : Registry σ) (id : SubscriptionId) : Outcome → Registry σ
  | .delivered =>
    match r.recordSuccess id with
    | .ok r => r
    | .error _ => r
  | .reset =>
    match r.remove id with
    | .ok (_, r) => r
    | .error _ => r
  | .failed _ => (r.recordFailure id).2

end

variable {r : Registry MemoryStore} {id : SubscriptionId} {s : Subscription}

def without (r : Registry MemoryStore) (id : SubscriptionId) : Registry MemoryStore :=
  { r with store := (r.store.remove id).2, schedule := r.schedule.erase id }

def changed (r : Registry MemoryStore) (id : SubscriptionId) (f : Subscription → Subscription) :
    Registry MemoryStore :=
  { r with store := (r.store.modify id f).2 }

theorem changed_unused {f : Subscription → Subscription}
    (hget : r.store.subscriptions.get? id = none) : r.changed id f = r := by
  unfold changed
  rw [MemoryStore.modify_unused hget]

theorem recordSuccess_unknown (hget : r.store.subscriptions.get? id = none) :
    r.recordSuccess id = .ok r := by
  unfold recordSuccess
  rw [show SubscriptionStore.get? r.store id = none from hget]

/-- Whether failed pushes count or not, after a success none do. -/
theorem recordSuccess_eq (h : r.store.Consistent) :
    r.recordSuccess id = .ok (r.changed id Subscription.clearFailures) := by
  unfold recordSuccess
  cases hget : SubscriptionStore.get? r.store id with
  | none => rw [changed_unused hget]
  | some s =>
    dsimp only
    split
    · rename_i hzero
      obtain rfl : s.id = id := h.own id s hget
      have hsame : { s.clearFailures with id := s.id } = s := by
        unfold Subscription.clearFailures
        rw [← hzero]
      unfold changed
      rw [MemoryStore.modify_eq hget, hsame, h.replace_self hget]
    · rfl

theorem recordFailure_unknown (hget : r.store.subscriptions.get? id = none) :
    r.recordFailure id = (.ok .unknown, r) := by
  have hmodify : SubscriptionStore.modify r.store id Subscription.countFailure =
      .ok (none, r.store) := congrArg Except.ok (MemoryStore.modify_unused hget)
  unfold recordFailure
  rw [hmodify]

/-- A push that failed is counted, and removes the subscription if it is one more than tolerated. -/
theorem recordFailure_known (hget : r.store.subscriptions.get? id = some s) :
    r.recordFailure id =
      if s.countFailure.failedPushes ≤ r.failureLimit then
        (.ok (.counted s.countFailure.failedPushes), r.changed id Subscription.countFailure)
      else
        (.ok (.removed s.countFailure.failedPushes),
          (r.changed id Subscription.countFailure).without id) := by
  have hmodify : SubscriptionStore.modify r.store id Subscription.countFailure =
      .ok (some { s.countFailure with id := s.id },
        (r.changed id Subscription.countFailure).store) := by
    unfold changed
    rw [MemoryStore.modify_eq hget]
    exact congrArg Except.ok (MemoryStore.modify_eq hget)
  unfold recordFailure
  rw [hmodify]
  dsimp only
  split <;> rfl

theorem settled_delivered (h : r.store.Consistent) :
    r.settled id .delivered = r.changed id Subscription.clearFailures := by
  rw [Registry.settled, recordSuccess_eq h]

theorem settled_reset : r.settled id .reset = r.without id := rfl

theorem settled_failed_unknown {status : Option UInt16}
    (hget : r.store.subscriptions.get? id = none) : r.settled id (.failed status) = r :=
  congrArg Prod.snd (recordFailure_unknown hget)

theorem settled_failed {status : Option UInt16} (hget : r.store.subscriptions.get? id = some s) :
    r.settled id (.failed status) =
      if s.countFailure.failedPushes ≤ r.failureLimit then r.changed id Subscription.countFailure
      else (r.changed id Subscription.countFailure).without id := by
  show (r.recordFailure id).2 = _
  rw [recordFailure_known hget]
  split <;> rfl

/-- The outcome of a push to a subscription that is gone changes nothing. -/
theorem settled_gone (hget : r.store.subscriptions.get? id = none) (h : r.schedule.get? id = none)
    (o : Outcome) : r.settled id o = r := by
  cases o with
  | delivered =>
    rw [Registry.settled, recordSuccess_unknown hget]
  | reset =>
    rw [settled_reset, without, MemoryStore.remove_unused hget, Table.erase_absent h]
  | failed status => exact settled_failed_unknown hget

/-! ## Operations about others -/

/-- An operation that is about others leaves a subscription as it is. A schedule without it may get
an entry for it only while it is stored. -/
structure Spares (id : SubscriptionId) (r r' : Registry MemoryStore) : Prop where
  consistent : r'.store.Consistent
  failureLimit : r'.failureLimit = r.failureLimit
  get? : r'.store.subscriptions.get? id = r.store.subscriptions.get? id
  unscheduled : r.store.subscriptions.get? id = none → r.schedule.get? id = none →
    r'.schedule.get? id = none

namespace Spares

variable {r' r'' : Registry MemoryStore} {i : SubscriptionId}

theorem refl (h : r.store.Consistent) : Spares id r r :=
  ⟨h, rfl, rfl, fun _ hnone => hnone⟩

theorem trans (h : Spares id r r') (h' : Spares id r' r'') : Spares id r r'' where
  consistent := h'.consistent
  failureLimit := h'.failureLimit.trans h.failureLimit
  get? := h'.get?.trans h.get?
  unscheduled hget hnone := h'.unscheduled (h.get?.trans hget) (h.unscheduled hget hnone)

/-- A write of the store, with the schedule as it was. -/
theorem write (h : r.store.Consistent) (op : StoreOp) (hfresh : op.FreshFor r.store)
    (hop : op.subject ≠ some id) : Spares id r { r with store := (op.apply r.store).2 } where
  consistent := h.apply op hfresh
  failureLimit := rfl
  get? := h.apply_frame op hop
  unscheduled _ hnone := hnone

theorem changed (h : r.store.Consistent) (hne : i ≠ id) (f : Subscription → Subscription) :
    Spares id r (r.changed i f) :=
  write h (.modify i f) trivial fun heq => hne (Option.some.inj heq)

theorem without (h : r.store.Consistent) (hne : i ≠ id) : Spares id r (r.without i) where
  consistent := h.remove i
  failureLimit := rfl
  get? := h.apply_frame (.remove i) fun heq => hne (Option.some.inj heq)
  unscheduled _ hnone := (Table.get?_erase _ i id).trans (by rw [if_neg (Ne.symm hne), hnone])

/-- The outcome of a push to somebody else. -/
theorem settled (h : r.store.Consistent) (hne : i ≠ id) (o : Outcome) :
    Spares id r (r.settled i o) := by
  cases o with
  | delivered =>
    rw [settled_delivered h]
    exact changed h hne _
  | reset => exact without h hne
  | failed status =>
    cases hget : r.store.subscriptions.get? i with
    | none =>
      rw [settled_failed_unknown hget]
      exact refl h
    | some s =>
      rw [settled_failed hget]
      have hcounted := changed h hne Subscription.countFailure
      split
      · exact hcounted
      · exact hcounted.trans (without hcounted.consistent hne)

end Spares
end Registry
end TransitPush
