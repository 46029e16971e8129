import TransitPush.Feed.Journey
import TransitPush.Feed.Situation
/-!
# Events

What producers send: a situation or a journey update.
-/
namespace TransitPush

inductive EventKind where
  | situation
  | journey
deriving DecidableEq

inductive Event where
  | situation (s : Situation)
  | journey (u : JourneyUpdate)
deriving DecidableEq

namespace EventKind

/-- The name of a kind in counters. -/
def label : EventKind → String
  | situation => "situation"
  | journey => "vehicle_journey"

/-- The name of a kind in documents. -/
def key : EventKind → String
  | situation => "situation"
  | journey => "vehicleJourney"

/-- What a kind adds to the push address of a subscriber who takes events bare. Mirrors
`legacy_suffix`. -/
def addressSuffix : EventKind → String
  | situation => "/sx"
  | journey => "/et"

end EventKind

namespace Event

def kind : Event → EventKind
  | situation _ => .situation
  | journey _ => .journey

/-- Mirrors `producer_ref`. -/
def producer : Event → Option String
  | situation s => s.participant
  | journey u => u.source

end Event
end TransitPush
