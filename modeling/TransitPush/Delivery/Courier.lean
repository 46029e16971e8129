import TransitPush.Delivery.Counter
import TransitPush.Delivery.Sweep
import TransitPush.Delivery.Transport
import TransitPush.Registry
import TransitPush.Routing.Router
/-!
# The courier

The courier takes pushes and notices, posts them one by one in any order, and tells the registry what
became of the pushes. Notices are sent once and their answers do not count (section 4.4 of the
specification).

* `Outgoing.post`: where a push goes and what it says.
* `Courier.finish`: one of the parcels that wait is posted, and its answer takes effect.
* `Courier.sweep`: what a sweep finds is queued, and subscriptions that end are removed.
-/
namespace TransitPush

/-! ## Parcels -/

/-- What waits to be posted. -/
inductive Parcel where
  | push (o : Outgoing)
  | notice (kind : NoticeKind) (address : String) (envelope : Envelope)
deriving DecidableEq

/-- The payload of an event without the name of its kind. -/
def Event.barePayload : Event → Except CodecError ByteArray
  | .situation s => Situation.format.toPayload s
  | .journey u => JourneyUpdate.format.toPayload u

def withoutSlashes (address : String) : String :=
  .ofList (address.toList.reverse.dropWhile (· == '/')).reverse

/-- The post of a push at a time: an envelope to the address itself, a bare event to the address of
its kind. Mirrors `payload`. -/
def Outgoing.post (o : Outgoing) (now : Timestamp) : Except CodecError Post :=
  if o.subscription.enveloped then
    (Envelope.format.toPayload (.delivering o.event now)).map fun body =>
      ⟨o.subscription.address, contentType, body⟩
  else
    o.event.barePayload.map fun body =>
      ⟨withoutSlashes o.subscription.address ++ o.event.kind.addressSuffix, contentType, body⟩

/-- The notice that a subscription is alive. Mirrors `notify_heartbeat`. -/
def Subscription.heartbeatNotice (s : Subscription) (now : Timestamp) : Parcel :=
  .notice .heartbeat s.address (.heartbeat (some s.name) now)

/-- The notice that a subscription has ended. Mirrors `notify_terminated`. -/
def Subscription.endNotice (s : Subscription) (now : Timestamp) : Parcel :=
  .notice .terminated s.address (.terminated s.requestor s.clientRef now)

/-- A registry, a way to post, and the parcels that wait. Mirrors `DeliveryPipeline`. -/
structure Courier (σ τ : Type) where
  registry : Registry σ
  transport : τ
  counters : Counters
  waiting : List Parcel

namespace Courier

variable {σ τ : Type} [SubscriptionStore σ] [Transport τ]

/-! ## Posting -/

/-- Posts what could be encoded; nothing is posted otherwise. -/
def send (c : Courier σ τ) : Except CodecError Post → Answer × Courier σ τ
  | .error e => (.error (.codec e), c)
  | .ok p =>
    let (answer, transport) := Transport.post c.transport p
    (answer, { c with transport })

def count (c : Courier σ τ) (counter : Counter) : Courier σ τ :=
  { c with counters := c.counters.bump counter }

/-- What the outcome of a push does to its subscription. What the store refuses is left undone.
Mirrors `push_event`, once there is an answer. -/
def settle (c : Courier σ τ) (id : SubscriptionId) : Outcome → Courier σ τ
  | .delivered =>
    match c.registry.recordSuccess id with
    | .ok registry => { c with registry }
    | .error _ => c
  | .reset =>
    match c.registry.remove id with
    | .ok (_, registry) => { c with registry }.count (.removed .reset)
    | .error _ => c
  | .failed _ =>
    match c.registry.recordFailure id with
    | (.ok (.removed _), registry) => { c with registry }.count (.removed .failedPushes)
    | (_, registry) => { c with registry }

/-- Posts a parcel at a time. Mirrors `push_event` and `notify_envelope`. -/
def deliver (c : Courier σ τ) (now : Timestamp) : Parcel → Courier σ τ
  | .push o =>
    let (answer, c) := c.send (o.post now)
    let outcome := Outcome.ofAnswer answer
    (c.count (.pushed outcome)).settle o.subscription.id outcome
  | .notice kind address envelope =>
    let (_, c) := c.send ((Envelope.format.toPayload envelope).map fun body =>
      ⟨address, contentType, body⟩)
    c.count (.noticed kind)

/-! ## Waiting parcels -/

/-- Mirrors `notify`. -/
def enqueue (c : Courier σ τ) (p : Parcel) : Courier σ τ :=
  { c with waiting := c.waiting ++ [p] }

/-- Mirrors `notify_all`. -/
def enqueueAll (c : Courier σ τ) (ps : List Parcel) : Courier σ τ :=
  { c with waiting := c.waiting ++ ps }

/-- Posts one of the parcels that wait. -/
def finish (c : Courier σ τ) (now : Timestamp) (i : Nat) : Courier σ τ :=
  match c.waiting[i]? with
  | some p => { c with waiting := c.waiting.eraseIdx i }.deliver now p
  | none => c

def finishAll (c : Courier σ τ) (now : Timestamp) : Courier σ τ :=
  c.waiting.foldl (fun c p => c.deliver now p) { c with waiting := [] }

/-! ## Sweeps -/

/-- Queues the notice of its end and removes a subscription, if the store lets it. -/
def terminate (c : Courier σ τ) (now : Timestamp) (s : Subscription) : Courier σ τ :=
  let c := c.enqueue (s.endNotice now)
  match c.registry.remove s.id with
  | .ok (_, registry) => { c with registry }
  | .error _ => c

/-- A sweep: who has reached the end gets a notice and is removed, who is due a heartbeat gets it.
Mirrors `run` of the scheduler. -/
def sweep (c : Courier σ τ) (planner : Planner) (now : Timestamp) :
    SweepPlan × Planner × Courier σ τ :=
  let (plan, planner, schedule) :=
    planner.plan c.registry.schedule (SubscriptionStore.list c.registry.store) now
  let c := { c with registry := { c.registry with schedule } }
  let c := plan.terminate.foldl (fun c s => c.terminate now s) c
  (plan, planner, c.enqueueAll (plan.heartbeat.map fun s => s.heartbeatNotice now))

end Courier
end TransitPush
