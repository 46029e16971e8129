import TransitPush.Time.Timestamp
/-!
# Journey updates

A journey update reports the progress of a vehicle: the calls it made and those it is expected to
make. The update is complete if its calls are all the stops of the journey.
-/
namespace TransitPush

/-- A stop of a vehicle, made or expected. -/
structure Call where
  stopRef : Option String
  stopName : Option String
  aimedArrival : Option Timestamp
  expectedArrival : Option Timestamp
  aimedDeparture : Option Timestamp
  expectedDeparture : Option Timestamp
  platform : Option String
deriving DecidableEq

structure JourneyUpdate where
  lineRef : Option String
  directionRef : Option String
  datedJourneyRef : Option String
  vehicleRef : Option String
  operatorRef : Option String
  source : Option String
  cancellation : Option Bool
  complete : Option Bool
  recorded : List Call
  estimated : List Call
deriving DecidableEq

namespace Call

def blank : Call := ⟨none, none, none, none, none, none, none⟩

def atStop (ref : String) : Call :=
  { blank with stopRef := some ref }

def departing (c : Call) (t : Timestamp) : Call :=
  { c with expectedDeparture := some t }

def isAt (p : String → Bool) (c : Call) : Bool :=
  match c.stopRef with
  | some ref => p ref
  | none => false

end Call

namespace JourneyUpdate

def blank : JourneyUpdate := ⟨none, none, none, none, none, none, none, none, [], []⟩

def dated (line journey : String) : JourneyUpdate :=
  { blank with lineRef := some line, datedJourneyRef := some journey }

/-- The references by which the journey is known: the dated journey's, then the vehicle's. Mirrors
`journey_refs`. -/
def journeyRefs (u : JourneyUpdate) : List String :=
  u.datedJourneyRef.toList ++ u.vehicleRef.toList

/-- The stops of the calls in order, those already made first. Mirrors `stop_sequence`. -/
def stopSequence (u : JourneyUpdate) : List String :=
  (u.recorded ++ u.estimated).filterMap Call.stopRef

def isComplete (u : JourneyUpdate) : Bool :=
  u.complete == some true

/-- The update with only the calls at stops that pass a test. Mirrors `retain_calls`. -/
def retainCalls (u : JourneyUpdate) (p : String → Bool) : JourneyUpdate :=
  { u with recorded := u.recorded.filter (Call.isAt p), estimated := u.estimated.filter (Call.isAt p) }

def withEstimated (u : JourneyUpdate) (c : Call) : JourneyUpdate :=
  { u with estimated := u.estimated ++ [c] }

end JourneyUpdate
end TransitPush
