import TransitPush.Feed.Event
import TransitPush.Feed.Version
/-!
# Envelopes

Subscribers who ask for it get events and notices in envelopes, which name the protocol version and
the time.
-/
namespace TransitPush

/-- The events of a delivery are of one kind. -/
inductive Delivery where
  | journeys (us : List JourneyUpdate)
  | situations (ss : List Situation)
deriving DecidableEq

structure ServiceDelivery where
  time : Timestamp
  producer : Option String
  delivery : Delivery
deriving DecidableEq

structure Heartbeat where
  time : Timestamp
  producer : Option String
deriving DecidableEq

/-- The notice that a subscription has ended and nothing more will follow. -/
structure Termination where
  time : Timestamp
  subscriber : Option String
  subscription : Option String
deriving DecidableEq

inductive EnvelopeBody where
  | service (d : ServiceDelivery)
  | heartbeat (h : Heartbeat)
  | terminated (t : Termination)
deriving DecidableEq

structure Envelope where
  version : Version
  body : EnvelopeBody
deriving DecidableEq

namespace Envelope

/-- The envelope of the current version. -/
def ofBody (body : EnvelopeBody) : Envelope := ⟨.current, body⟩

def deliveryOf : Event → Delivery
  | .situation s => .situations [s]
  | .journey u => .journeys [u]

/-- Mirrors `service_delivery`. -/
def delivering (e : Event) (now : Timestamp) : Envelope :=
  .ofBody (.service ⟨now, e.producer, deliveryOf e⟩)

def heartbeat (producer : Option String) (now : Timestamp) : Envelope :=
  .ofBody (.heartbeat ⟨now, producer⟩)

def terminated (subscriber subscription : Option String) (now : Timestamp) : Envelope :=
  .ofBody (.terminated ⟨now, subscriber, subscription⟩)

def isHeartbeat (e : Envelope) : Bool :=
  match e.body with
  | .heartbeat _ => true
  | _ => false

def isTerminated (e : Envelope) : Bool :=
  match e.body with
  | .terminated _ => true
  | _ => false

end Envelope
end TransitPush
