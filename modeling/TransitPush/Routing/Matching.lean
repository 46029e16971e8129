import TransitPush.Feed.Event
import TransitPush.Routing.LiveRoutes
import TransitPush.Routing.Topology
import TransitPush.Store.Basic
/-!
# Matching

Which subscriptions an event concerns. Stops are directional: who travels from A to B wants to know
of a journey that passes A, or a quay of it, before B. Lines, vehicles and codespaces are plain
criteria of membership (section 4.1 of the specification).

* `Topology.subscribedStops`: the stops of a subscription, each station with its quays.
* `Topology.affected`: a row of stops passes a from stop before a to stop.
* `JourneyView.concerns`: every criterion that a subscription has holds of a journey.
* `Matcher.select`: the subscriptions that an event concerns, by identifier.
-/
namespace TransitPush

namespace Topology

/-- The stops of a list, each station with its quays. Mirrors `expand`. -/
def expand (t : Topology) (stops : List String) : RefSet :=
  stops.foldl (fun found stop =>
    ((if Ref.isStation stop then found.insertAll (t.quaysOf stop).toList else found)).insert stop) ∅

/-- Mirrors `subscribed_stops`. -/
def subscribedStops (t : Topology) (s : Subscription) : RefSet :=
  t.expand s.stops

/-- The row of stops passes a from stop of the subscription, and later a to stop. Mirrors `affected`. -/
def affected (t : Topology) (s : Subscription) (row : List String) : Bool :=
  if s.fromStops.isEmpty || s.toStops.isEmpty then false
  else
    let starts := t.expand s.fromStops.toList
    let ends := t.expand s.toStops.toList
    match row.dropWhile fun stop => stop ∉ starts with
    | [] => false
    | _ :: later => later.any fun stop => stop ∈ ends

end Topology

/-- What is known of a journey. Mirrors `JourneyContext`. -/
structure JourneyView where
  lineRef : Option String
  journeyRefs : List String
  codespace : Option String
  stops : List String

/-- A codespace is one that the subscription wants, or it does not say which. Mirrors
`codespace_matches`. -/
def Subscription.acceptsCodespace (s : Subscription) (codespace : Option String) : Bool :=
  s.codespaces.isEmpty || codespace.any fun c => c ∈ s.codespaces

namespace JourneyView

/-- The subscription has a criterion, and each one that it has holds of the journey. Mirrors
`matches_journey`. -/
def concerns (v : JourneyView) (t : Topology) (s : Subscription) : Bool :=
  let byStops := !s.hasNoStops
  let byLine := !s.lineRefs.isEmpty
  let byVehicle := !s.vehicleRefs.isEmpty
  let byCodespace := !s.codespaces.isEmpty
  (byStops || byLine || byVehicle || byCodespace) &&
    (!byStops || t.affected s v.stops) &&
    (!byLine || v.lineRef.any fun l => l ∈ s.lineRefs) &&
    (!byVehicle || v.journeyRefs.any fun r => r ∈ s.vehicleRefs) &&
    (!byCodespace || s.acceptsCodespace v.codespace)

end JourneyView

namespace Scope

/-- The registered stops that a scope mentions: stop points, stop places and the stops of routes.
Mirrors `find_affected_stop_point_refs`. -/
def registryStops (s : Scope) : RefSet :=
  let direct := s.stopPoints.filterMap StopPoint.ref
  let places := s.stopPlaces.filterMap StopPlace.ref
  let routes := (s.journeys.flatMap AffectedJourney.routes).flatMap Route.stopRefs
  .ofList ((direct ++ places ++ routes).filter Ref.isRegistryStop)

def networkLines (s : Scope) : RefSet :=
  .ofList ((s.networks.flatMap Network.lines).filterMap NetworkLine.ref)

end Scope

/-- Where an event's subscriptions are looked up: a store, the topology and the live routes. -/
structure Matcher (σ : Type) where
  store : σ
  topology : Topology
  routes : LiveRoutes

namespace Matcher

variable {σ : Type} [SubscriptionStore σ]

/-- The live route of the first of a journey's references that has one. Mirrors `live_route`. -/
def liveRoute? (m : Matcher σ) (refs : List String) : Option (List String) :=
  refs.findSome? m.routes.stops?

/-- The rows of stops by which an affected journey is matched: for each route its live route, unless
the route lists all its stops. A journey without routes has one row without stops. -/
def rows (m : Matcher σ) (j : AffectedJourney) : List (List String) :=
  if j.routes.isEmpty then [[]]
  else j.routes.map fun r =>
    if r.isComplete then r.stopRefs else (m.liveRoute? j.journeyRefs).getD r.stopRefs

def views (m : Matcher σ) (codespace : Option String) (j : AffectedJourney) : List JourneyView :=
  (m.rows j).map fun stops => ⟨j.lineRef, j.journeyRefs, codespace, stops⟩

def viewOf (m : Matcher σ) (u : JourneyUpdate) : JourneyView where
  lineRef := u.lineRef
  journeyRefs := u.journeyRefs
  codespace := u.source
  stops :=
    if u.isComplete then u.stopSequence
    else (m.liveRoute? u.journeyRefs).getD u.stopSequence

/-- The subscriptions on a stop, and for a quay those on its station. Mirrors
`subscriptions_for_stop`. -/
def forStop (m : Matcher σ) (stop : String) : List Subscription :=
  SubscriptionStore.byStop m.store stop ++
    if Ref.isQuay stop then
      match m.topology.stationOf? stop with
      | some station => SubscriptionStore.byStop m.store station
      | none => []
    else []

/-- Adds the candidates that pass a test to those found, unless they are there. Mirrors
`collect_matching`. -/
def collect (found : Table Subscription) (keep : Subscription → Bool)
    (candidates : List Subscription) : Table Subscription :=
  candidates.foldl (fun found s =>
    if !found.contains s.id && keep s then found.insert s.id s else found) found

def gather (found : Table Subscription) (ss : List Subscription) : Table Subscription :=
  ss.foldl (fun found s => found.insert s.id s) found

/-- The subscriptions whose criteria hold of one of the journeys, by identifier. Mirrors
`find_affected_subscriptions`. -/
def concerned (m : Matcher σ) (journeys : List AffectedJourney) (codespace : Option String) :
    List Subscription :=
  let all := SubscriptionStore.list m.store
  ((journeys.flatMap (m.views codespace)).foldl
    (fun found v => collect found (v.concerns m.topology) all) ∅).values

/-- The subscriptions that a situation concerns, by identifier: those on its stops, those whose
criteria hold of an affected journey, those on the line of an affected network, and those that want
all of its codespace. The latter two only if they name no stops. Mirrors `select_for_situation`. -/
def selectSituation (m : Matcher σ) (s : Situation) : List Subscription :=
  match s.affects with
  | none => []
  | some scope =>
    let onStops := gather ∅ (scope.registryStops.toList.flatMap m.forStop)
    let onJourneys := gather onStops (m.concerned scope.journeys s.participant)
    let onLines := scope.networkLines.toList.foldl
      (fun found line => collect found
        (fun t => t.hasNoStops && t.acceptsCodespace s.participant)
        (SubscriptionStore.byLine m.store line)) onJourneys
    let onCodespace := match s.participant with
      | none => onLines
      | some codespace => collect onLines (fun t => t.hasNoStops && t.lineRefs.isEmpty)
          (SubscriptionStore.byCodespace m.store codespace)
    onCodespace.values

/-- The subscriptions that a journey update concerns, by identifier. Mirrors
`select_for_vehicle_journey`. -/
def selectJourney (m : Matcher σ) (u : JourneyUpdate) : List Subscription :=
  (collect ∅ ((m.viewOf u).concerns m.topology) (SubscriptionStore.list m.store)).values

def select (m : Matcher σ) : Event → List Subscription
  | .situation s => m.selectSituation s
  | .journey u => m.selectJourney u

end Matcher
end TransitPush
