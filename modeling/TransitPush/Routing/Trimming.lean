import TransitPush.Feed.Event
import TransitPush.Subscription
/-!
# Trimming

A subscriber gets a reduced copy of an event, with only the parts that concern the subscription. The
event itself stays as it was received (section 4.2 of the specification).

* `Situation.trimmed?`: `none` if nothing is left, and then nothing is pushed.
* `JourneyUpdate.trimmed`: the calls at the subscriber's stops.
-/
namespace TransitPush

namespace Network

/-- The network with the lines that the subscription names. Mirrors `trim_networks`. -/
def trimmed (s : Subscription) (n : Network) : Network :=
  { n with lines := n.lines.filter fun l => l.ref.any fun r => r ∈ s.lineRefs }

end Network

namespace Route

/-- The route with the stops of a set. The shapes of links have no stop and stay. -/
def trimmed (stops : RefSet) (r : Route) : Route :=
  ⟨r.stops.map fun rs => { rs with points := rs.points.filter fun p =>
    match p.stopRef? with
    | some ref => ref ∈ stops
    | none => !p.isStop }⟩

end Route

namespace AffectedJourney

/-- The journey may be on a line that the subscription names: it has no line, or the subscription
names none, or they agree. Mirrors `on_subscribed_line`. -/
def onLineOf (s : Subscription) (j : AffectedJourney) : Bool :=
  match j.lineRef.map Text.trim with
  | some line => line = "" || s.lineRefs.isEmpty || line ∈ s.lineRefs
  | none => true

/-- The journey with the routes that still have stops of the subscription, if it names stops. Mirrors
`trim_journeys`. -/
def trimmedRoutes (s : Subscription) (stops : RefSet) (j : AffectedJourney) : AffectedJourney :=
  if s.hasNoStops then j
  else { j with routes := (j.routes.map (Route.trimmed stops)).filter fun r => 0 < r.stopCount }

end AffectedJourney

namespace Scope

/-- The sections that are passed on at all. -/
def profile (s : Scope) : Scope :=
  { empty with networks := s.networks, stopPlaces := s.stopPlaces, journeys := s.journeys }

/-- The sections with what concerns the subscription. -/
def trimmed (sub : Subscription) (stops : RefSet) (s : Scope) : Scope where
  area := s.area
  extensions := s.extensions
  operators := s.operators
  networks := (s.networks.map (Network.trimmed sub)).filter fun n => !n.lines.isEmpty
  places := s.places
  stopPoints := s.stopPoints
  stopPlaces :=
    if sub.hasNoStops then []
    else s.stopPlaces.filter fun p => p.ref.any fun r => r ∈ stops
  journeys := ((s.journeys.filter (AffectedJourney.onLineOf sub)).map
    (AffectedJourney.trimmedRoutes sub stops)).filter fun j => !j.routes.isEmpty
  roads := s.roads
  vehicles := s.vehicles

end Scope

namespace Situation

/-- The copy of a situation for a subscription with the given stops. Who wants all of a codespace gets
all sections that are passed on. Mirrors `trim_situation`. -/
def trimmed? (sub : Subscription) (stops : RefSet) (s : Situation) : Option Situation :=
  match s.affects with
  | none => none
  | some scope =>
    let kept := if sub.isFirehose then scope.profile else scope.profile.trimmed sub stops
    if kept.hasProfile then some { s with affects := some kept } else none

end Situation

namespace JourneyUpdate

/-- The copy of a journey update for a subscription with the given stops. If it names stops, only calls
at them are left, and the copy is marked incomplete. Mirrors `trim_vehicle_journey`. -/
def trimmed (sub : Subscription) (stops : RefSet) (u : JourneyUpdate) : JourneyUpdate :=
  if sub.hasNoStops then u
  else { u.retainCalls fun ref => ref ∈ stops with complete := some false }

end JourneyUpdate

namespace Event

/-- The copy of an event for a subscription with the given stops. -/
def trimmed? (sub : Subscription) (stops : RefSet) : Event → Option Event
  | situation s => (s.trimmed? sub stops).map situation
  | journey u => some (journey (u.trimmed sub stops))

end Event
end TransitPush
