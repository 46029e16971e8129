import TransitPush.Feed.Ref
import TransitPush.Json.Value
import TransitPush.Time.Timestamp
/-!
# Situations

A situation is a disruption of traffic: a number and version, what it is about in words, and the
scope it affects. Stops, lines and routes are named by references, each of which may be missing.
-/
namespace TransitPush

structure ValidityPeriod where
  start : Option Timestamp
  finish : Option Timestamp
deriving DecidableEq

structure StopPoint where
  ref : Option String
  name : Option String
deriving DecidableEq

structure StopPlace where
  ref : Option String
  name : Option String
deriving DecidableEq

structure NetworkLine where
  ref : Option String
deriving DecidableEq

structure Network where
  ref : Option String
  lines : List NetworkLine
deriving DecidableEq

/-- A point on a route: a stop, or the shape of the way to the next one. -/
inductive RoutePoint where
  | stop (point : StopPoint)
  | link (positions : List (Double × Double))
deriving DecidableEq

/-- The points of a route; `affectedOnly` says that they are all its stops in order. -/
structure RouteStops where
  affectedOnly : Bool
  points : List RoutePoint
deriving DecidableEq

structure Route where
  stops : Option RouteStops
deriving DecidableEq

/-- Mirrors `AffectedVehicleJourney`. -/
structure AffectedJourney where
  lineRef : Option String
  journeyRefs : List String
  routes : List Route
deriving DecidableEq

/-- What a situation affects. Mirrors `AffectsScope`. -/
structure Scope where
  area : Option String
  extensions : Option Json
  operators : List String
  networks : List Network
  places : List String
  stopPoints : List StopPoint
  stopPlaces : List StopPlace
  journeys : List AffectedJourney
  roads : List String
  vehicles : List String
deriving DecidableEq

structure Situation where
  number : Option String
  version : Option UInt64
  participant : Option String
  created : Option Timestamp
  validity : List ValidityPeriod
  summaries : List String
  descriptions : List String
  affects : Option Scope
deriving DecidableEq

namespace RoutePoint

def stopRef? : RoutePoint → Option String
  | stop p => p.ref
  | link _ => none

/-- A point is a stop, with or without a reference. -/
def isStop : RoutePoint → Bool
  | stop _ => true
  | link _ => false

end RoutePoint

namespace Route

def points (r : Route) : List RoutePoint :=
  match r.stops with
  | some s => s.points
  | none => []

/-- The references of a route's stops in order. Mirrors `stop_refs`. -/
def stopRefs (r : Route) : List String :=
  r.points.filterMap RoutePoint.stopRef?

/-- The number of stops on a route, those without reference too. Mirrors `stop_point_count`. -/
def stopCount (r : Route) : Nat :=
  r.points.countP RoutePoint.isStop

/-- The route lists all its stops in order. -/
def isComplete (r : Route) : Bool :=
  match r.stops with
  | some s => s.affectedOnly
  | none => false

def through (stops : List String) (affectedOnly : Bool) : Route :=
  ⟨some ⟨affectedOnly, stops.map fun ref => .stop ⟨some ref, none⟩⟩⟩

end Route

namespace AffectedJourney

def onLine (line : String) (stops : List String) (affectedOnly : Bool) : AffectedJourney :=
  ⟨some line, [], [.through stops affectedOnly]⟩

def withRef (j : AffectedJourney) (ref : String) : AffectedJourney :=
  { j with journeyRefs := j.journeyRefs ++ [ref] }

def withRoute (j : AffectedJourney) (r : Route) : AffectedJourney :=
  { j with routes := j.routes ++ [r] }

end AffectedJourney

namespace Scope

def empty : Scope := ⟨none, none, [], [], [], [], [], [], [], []⟩

/-- The scope has a section that is passed on to subscribers: networks, stop places or journeys.
Mirrors `has_profile_content`. -/
def hasProfile (s : Scope) : Bool :=
  !s.stopPlaces.isEmpty || !s.journeys.isEmpty || !s.networks.isEmpty

end Scope

namespace Situation

def blank : Situation := ⟨none, none, none, none, [], [], [], none⟩

def numbered (number : String) (version : UInt64) : Situation :=
  { blank with number := some number, version := some version }

end Situation
end TransitPush
