import TransitPush.Store.Basic
import TransitPush.Supply
import TransitPush.TimestampMap
/-!
# The registry

The registry is the only writer of subscriptions. It checks and stores them, counts the failed pushes
of each, and removes a subscription together with its entry in the schedule of heartbeats.

* `Registry.save`: what is stored is in normal form and has no problem.
* `Registry.subscribe`: subscribers by envelope are known by two references; who subscribes again
  with the same two replaces the earlier subscription.
* `Registry.recordFailure`: one failed push more; beyond the limit the subscription is removed.
-/
namespace TransitPush

/-- Why the registry refuses a request. Mirrors `SubscriptionError`. -/
inductive RegistryError where
  | invalid (p : Subscription.Problem)
  | missingReferences
  | unknown (id : SubscriptionId)
  | store (e : StoreError)
deriving DecidableEq

def RegistryError.message : RegistryError → String
  | .invalid p => p.message
  | .missingReferences => "Requestor ref and client subscription ref are required"
  | .unknown id => "Subscription not found: " ++ id
  | .store e => e.message

/-- What a failed push leads to: it is counted, or the subscription is removed for it, or the
subscription was gone already. -/
inductive PushFailure where
  | counted (failures : UInt32)
  | removed (failures : UInt32)
  | unknown
deriving DecidableEq

def defaultFailureLimit : UInt32 := 3

structure Registry (σ : Type) where
  store : σ
  schedule : TimestampMap
  ids : Supply
  failureLimit : UInt32

/-! ## Subscribers by envelope -/

/-- The two references of a subscriber by envelope, without blanks around them, if neither is
blank. -/
def Subscription.references? (s : Subscription) : Option (String × String) :=
  match s.requestor.map Text.trim, s.clientRef.map Text.trim with
  | some requestor, some client =>
    if requestor = "" ∨ client = "" then none else some (requestor, client)
  | _, _ => none

/-- The subscription of a subscriber by envelope: in envelopes and under the reserved name. -/
def Subscription.asEnveloped? (s : Subscription) : Option Subscription :=
  s.references?.map fun (requestor, client) =>
    { s with name := reservedName requestor client, enveloped := true }

namespace Registry

variable {σ : Type} [SubscriptionStore σ]

/-! ## Saving and removing -/

def add (r : Registry σ) (s : Subscription) : Except RegistryError (Subscription × Registry σ) :=
  let (id, ids) := r.ids.draw
  match SubscriptionStore.add r.store id s with
  | .ok (s, store) => .ok (s, { r with store, ids })
  | .error e => .error (.store e)

def replace (r : Registry σ) (s : Subscription) :
    Except RegistryError (Subscription × Registry σ) :=
  match SubscriptionStore.update r.store s with
  | .ok store => .ok (s, { r with store })
  | .error (.notFound id) => .error (.unknown id)
  | .error e => .error (.store e)

/-- Stores a subscription in normal form if it has no problem: as a new one, or in place of the one
whose identifier it carries. Mirrors `save`. -/
def save (r : Registry σ) (s : Subscription) (allowReserved : Bool) :
    Except RegistryError (Subscription × Registry σ) :=
  let s := s.normalized
  match s.check allowReserved with
  | .error p => .error (.invalid p)
  | .ok () => if Text.isBlankText s.id then r.add s else r.replace s

/-- Stores a subscription, whose name must not be reserved. Mirrors `add_or_update`. -/
def put (r : Registry σ) (s : Subscription) : Except RegistryError (Subscription × Registry σ) :=
  r.save s false

/-- The identifier under which a name is stored; empty if it is not. -/
def idOf (r : Registry σ) (name : String) : SubscriptionId :=
  ((SubscriptionStore.byName? r.store name).map Subscription.id).getD ""

/-- Stores the subscription of a subscriber by envelope, in place of an earlier one of the same
references. Mirrors `subscribe_enveloped`. -/
def subscribe (r : Registry σ) (s : Subscription) :
    Except RegistryError (Subscription × Registry σ) :=
  match s.asEnveloped? with
  | none => .error .missingReferences
  | some s => r.save { s with id := r.idOf s.name } true

/-- Removes a subscription and its entry in the schedule. Mirrors `remove`. -/
def remove (r : Registry σ) (id : SubscriptionId) :
    Except RegistryError (Option Subscription × Registry σ) :=
  match SubscriptionStore.remove r.store id with
  | .ok (s, store) => .ok (s, { r with store, schedule := r.schedule.erase id })
  | .error e => .error (.store e)

def reload (r : Registry σ) : Registry σ :=
  { r with store := SubscriptionStore.reload r.store }

/-! ## Answers to pushes -/

/-- After a push that succeeded no failed ones count. Mirrors `record_push_success`. -/
def recordSuccess (r : Registry σ) (id : SubscriptionId) : Except RegistryError (Registry σ) :=
  match SubscriptionStore.get? r.store id with
  | none => .ok r
  | some s =>
    if s.failedPushes = 0 then .ok r
    else
      match SubscriptionStore.modify r.store id Subscription.clearFailures with
      | .ok (_, store) => .ok { r with store }
      | .error e => .error (.store e)

/-- After a push that failed one more counts, and a subscription that has more of them than are
tolerated is removed. The count stays when the store refuses the removal. Mirrors
`record_push_failure`. -/
def recordFailure (r : Registry σ) (id : SubscriptionId) :
    Except RegistryError PushFailure × Registry σ :=
  match SubscriptionStore.modify r.store id Subscription.countFailure with
  | .error e => (.error (.store e), r)
  | .ok (none, store) => (.ok .unknown, { r with store })
  | .ok (some s, store) =>
    let r := { r with store }
    if s.failedPushes ≤ r.failureLimit then (.ok (.counted s.failedPushes), r)
    else
      match r.remove id with
      | .ok (_, r) => (.ok (.removed s.failedPushes), r)
      | .error e => (.error e, r)

end Registry
end TransitPush
