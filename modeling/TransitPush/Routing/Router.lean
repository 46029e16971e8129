import TransitPush.Routing.Dedup
import TransitPush.Routing.Matching
import TransitPush.Routing.Trimming
/-!
# Routing

What an event leads to: it is checked, events of producers that are not accepted are passed over, the
subscriptions that it concerns are selected, and each gets its trimmed copy unless nothing is left of
it or it was pushed before.
-/
namespace TransitPush

inductive RouteError where
  | missingSituationNumber
  | missingJourneyIdentity
deriving DecidableEq

def RouteError.message : RouteError → String
  | .missingSituationNumber => "Situation has no situation number"
  | .missingJourneyIdentity =>
    "Vehicle journey has no line, vehicle or dated vehicle journey reference"

/-- A push to be made: the copy of an event for a subscription. -/
structure Outgoing where
  subscription : Subscription
  event : Event
deriving DecidableEq

namespace Event

/-- An event must say what it is about: a situation by its number, a journey by its line, vehicle or
date. Mirrors `validate`. -/
def check : Event → Except RouteError Unit
  | situation s =>
    if s.number.all Text.isBlankText then .error .missingSituationNumber else .ok ()
  | journey u =>
    if u.lineRef.isNone && u.vehicleRef.isNone && u.datedJourneyRef.isNone then
      .error .missingJourneyIdentity
    else .ok ()

/-- The producer of the event is among those accepted; no list accepts all. Mirrors `accepts`. -/
def isAccepted (accepted : List String) (e : Event) : Bool :=
  accepted.isEmpty ||
    e.producer.any fun p => accepted.any fun a => Text.sameIgnoringAsciiCase a p

end Event

namespace Matcher

variable {σ : Type}

/-- The copy of an event for a subscription. Mirrors `trim`. -/
def copyFor (m : Matcher σ) (e : Event) (s : Subscription) : Option Event :=
  e.trimmed? s (m.topology.subscribedStops s)

end Matcher

namespace DedupCache

/-- The pushes among candidates, each recorded, in their order. -/
def pushes (c : DedupCache) (now : Timestamp) (copy : Subscription → Option Event) :
    List Subscription → List Outgoing × DedupCache
  | [] => ([], c)
  | s :: rest =>
    match copy s with
    | none => c.pushes now copy rest
    | some e =>
      let (send, c) := c.shouldSend s.id e now
      let (outgoing, c) := c.pushes now copy rest
      (if send then ⟨s, e⟩ :: outgoing else outgoing, c)

end DedupCache

/-- Routes an event at a time: the pushes to be made, by identifier, and the record of pushes after
them. Mirrors `route`. -/
def route {σ : Type} [SubscriptionStore σ] (m : Matcher σ) (accepted : List String)
    (c : DedupCache) (e : Event) (now : Timestamp) :
    Except RouteError (List Outgoing × DedupCache) :=
  match e.check with
  | .error err => .error err
  | .ok () =>
    if e.isAccepted accepted then .ok (c.pushes now (m.copyFor e) (m.select e))
    else .ok ([], c)

end TransitPush
