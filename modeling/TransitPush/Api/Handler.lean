import TransitPush.Api.Request
import TransitPush.Hub
/-!
# The server's answers

What the server does with a request: subscriptions are saved, shown and removed, and events are routed
and their pushes queued.

* `Hub.receive`: an event is counted, routed, and counted as rejected if that fails.
* `handle`: the response to a request, and the hub after it.
-/
namespace TransitPush

namespace Hub

variable {σ τ : Type} [SubscriptionStore σ] [Transport τ]

/-- Counts an event and queues its pushes, as `route_event` does. -/
def receive (h : Hub σ τ) (e : Event) (now : Timestamp) : Except RouteError Nat × Hub σ τ :=
  let h := { h with courier := h.courier.count (.received e.kind) }
  match h.publish e now with
  | .ok (queued, h) => (.ok queued, h)
  | .error err => (.error err, { h with courier := h.courier.count (.rejected e.kind) })

end Hub

namespace Api

variable {σ τ : Type} [SubscriptionStore σ] [Transport τ]

def version : String := "0.1.1"

/-! ## Responses -/

def failure (status : UInt16) (message : String) : Response :=
  ⟨status, some (.object [("error", .text message)])⟩

/-- The response to a request that the registry refuses. Mirrors `into_response`. -/
def refusal (e : RegistryError) : Response :=
  let status := match e with
    | .unknown _ => 404
    | .store _ => 500
    | .invalid _ | .missingReferences => 400
  failure status e.message

def shown (s : Subscription) : Response :=
  ⟨200, some (Subscription.format.toJson s)⟩

def number (n : Nat) : Json :=
  .number (.ofUInt64 n.toUInt64)

/-! ## Requests -/

/-- Mirrors `health_handler`. -/
def health (h : Hub σ τ) (node : String) : Response :=
  ⟨200, some (.object [
    ("status", .text "ok"),
    ("version", .text version),
    ("node", .text node),
    ("subscriptions", number (SubscriptionStore.size h.store)),
    ("pushesInFlight", number h.courier.waiting.length)])⟩

/-- Mirrors `list_subscriptions`. -/
def list (h : Hub σ τ) : Response :=
  ⟨200, some (.list ((SubscriptionStore.list h.store).map Subscription.format.toJson))⟩

/-- What the registry makes of a subscription in a body. Mirrors `save_subscription` and
`subscribe_enveloped`, which differ in what they ask of the registry. -/
def save (h : Hub σ τ) (r : Request)
    (save : Subscription → Except RegistryError (Subscription × Registry σ)) :
    Response × Hub σ τ :=
  match r.read Subscription.format with
  | .error status => (.bare status, h)
  | .ok s =>
    match save s with
    | .ok (s, registry) => (shown s, h.withRegistry registry)
    | .error e => (refusal e, h)

/-- Mirrors `get_subscription`. -/
def get (h : Hub σ τ) : Option String → Response
  | none => .bare 400
  | some id =>
    match SubscriptionStore.get? h.store id with
    | some s => shown s
    | none => refusal (.unknown id)

/-- Mirrors `delete_subscription`. -/
def delete (h : Hub σ τ) : Option String → Response × Hub σ τ
  | none => (.bare 400, h)
  | some id =>
    match h.registry.remove id with
    | .error e => (refusal e, h)
    | .ok (none, registry) => (refusal (.unknown id), h.withRegistry registry)
    | .ok (some _, registry) => (.bare 204, h.withRegistry registry)

def queued : Except RouteError Nat → Response
  | .ok n => ⟨202, some (.object [("queued", number n)])⟩
  | .error e => failure 400 e.message

/-- Mirrors `post_situation`. -/
def postSituation (h : Hub σ τ) (r : Request) (now : Timestamp) : Response × Hub σ τ :=
  match r.read Situation.format with
  | .error status => (.bare status, h)
  | .ok s =>
    let (result, h) := h.receive (.situation s) now
    (queued result, h)

/-- Receives a journey update, as `post_journey` does. It is matched with the live routes known before
it, and then brings them up to date. -/
def postJourney (h : Hub σ τ) (r : Request) (now : Timestamp) : Response × Hub σ τ :=
  match r.read JourneyUpdate.format with
  | .error status => (.bare status, h)
  | .ok u =>
    match h.receive (.journey u) now with
    | (.ok n, h) => (queued (.ok n), { h with routes := h.routes.update u now })
    | (.error e, h) => (queued (.error e), h)

/-- What is done with a request by its route and method; a method that a route does not have is
refused. Mirrors the routes of `app`. -/
def perform (h : Hub σ τ) (node : String) (now : Timestamp) (r : Request) (method : String) :
    Route → Response × Hub σ τ
  | .health =>
    match method with
    | "GET" => (health h node, h)
    | _ => (.bare 405, h)
  | .subscriptions =>
    match method with
    | "GET" => (list h, h)
    | "POST" => save h r h.registry.put
    | _ => (.bare 405, h)
  | .enveloped =>
    match method with
    | "POST" => save h r h.registry.subscribe
    | _ => (.bare 405, h)
  | .subscription id =>
    match method with
    | "GET" => (get h id, h)
    | "DELETE" => delete h id
    | _ => (.bare 405, h)
  | .situations =>
    match method with
    | "POST" => postSituation h r now
    | _ => (.bare 405, h)
  | .journeys =>
    match method with
    | "POST" => postJourney h r now
    | _ => (.bare 405, h)
  | .reload =>
    match method with
    | "POST" => (.bare 204, h.withRegistry h.registry.reload)
    | _ => (.bare 405, h)

/-- The response to a request, and the hub after it. A request for the head gets the response to one
for the whole, without the body. -/
def handle (h : Hub σ τ) (node : String) (now : Timestamp) (r : Request) : Response × Hub σ τ :=
  match Route.ofPath? r.path with
  | none => (.bare 404, h)
  | some route =>
    if r.method = "HEAD" then
      let (response, h) := perform h node now r "GET" route
      (.bare response.status, h)
    else perform h node now r r.method route

end Api
end TransitPush
