import TransitPush.Delivery.Courier
/-!
# The hub

Everything together: subscriptions, topology, live routes, the record of pushes, the planner of sweeps
and the courier. Events come in, and pushes wait for the courier.

Times are arguments: what a server does from time to time may happen at any time and in any order.
Clocks, sockets, signals and logs are not modelled.

* `Hub.publish`: the pushes that an event leads to are queued.
* `Hub.sweep`: a sweep of all subscriptions.
-/
namespace TransitPush

structure Hub (σ τ : Type) where
  courier : Courier σ τ
  topology : Topology
  routes : LiveRoutes
  dedup : DedupCache
  accepted : List String
  planner : Planner

namespace Hub

variable {σ τ : Type} [SubscriptionStore σ] [Transport τ]

def registry (h : Hub σ τ) : Registry σ := h.courier.registry

def store (h : Hub σ τ) : σ := h.registry.store

def withRegistry (h : Hub σ τ) (registry : Registry σ) : Hub σ τ :=
  { h with courier := { h.courier with registry } }

def matcher (h : Hub σ τ) : Matcher σ := ⟨h.store, h.topology, h.routes⟩

/-- The pushes that an event leads to, which are recorded. Mirrors `route` of the router. -/
def route (h : Hub σ τ) (e : Event) (now : Timestamp) :
    Except RouteError (List Outgoing × Hub σ τ) :=
  match TransitPush.route h.matcher h.accepted h.dedup e now with
  | .ok (pushes, dedup) => .ok (pushes, { h with dedup })
  | .error err => .error err

/-- Queues the pushes that an event leads to, and says how many there are. -/
def publish (h : Hub σ τ) (e : Event) (now : Timestamp) : Except RouteError (Nat × Hub σ τ) :=
  match h.route e now with
  | .ok (pushes, h) =>
    .ok (pushes.length, { h with courier := h.courier.enqueueAll (pushes.map .push) })
  | .error err => .error err

def sweep (h : Hub σ τ) (now : Timestamp) : SweepPlan × Hub σ τ :=
  let (plan, planner, courier) := h.courier.sweep h.planner now
  (plan, { h with courier, planner })

def drain (h : Hub σ τ) (now : Timestamp) : Hub σ τ :=
  { h with courier := h.courier.finishAll now }

/-- Forgets the pushes recorded too long ago, and says how many. -/
def evictPushes (h : Hub σ τ) (now : Timestamp) : Nat × Hub σ τ :=
  let (removed, dedup) := h.dedup.evictExpired now
  (removed, { h with dedup })

/-- Forgets journeys not seen since a cutoff, and says how many. -/
def evictRoutes (h : Hub σ τ) (cutoff : Timestamp) : Nat × Hub σ τ :=
  let (removed, routes) := h.routes.evict cutoff
  (removed, { h with routes })

end Hub
end TransitPush
