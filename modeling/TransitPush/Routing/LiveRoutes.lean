import TransitPush.Feed.Journey
import TransitPush.Table
/-!
# Live routes

The live route of a journey is its current row of stops. Only an update that lists all stops replaces
it; any other update shows that the journey is still seen.

* `update`: what a journey update does to the routes of its references.
* `evict`: forgets journeys not seen since a cutoff.
-/
namespace TransitPush

structure LiveRoute where
  stops : List String
  seen : Timestamp
deriving DecidableEq

abbrev LiveRoutes := Table LiveRoute

namespace LiveRoutes

/-- Mirrors `current_stop_sequence`. -/
def stops? (rs : LiveRoutes) (ref : String) : Option (List String) :=
  (rs.get? ref).map LiveRoute.stops

/-- Sets the row of stops of a journey. Mirrors `insert`. -/
def put (rs : LiveRoutes) (ref : String) (stops : List String) (now : Timestamp) : LiveRoutes :=
  rs.insert ref ⟨stops, now⟩

def touch (rs : LiveRoutes) (now : Timestamp) (ref : String) : LiveRoutes :=
  match rs.get? ref with
  | some r => rs.insert ref { r with seen := now }
  | none => rs

/-- The routes after a journey update. A complete update without stops changes nothing. Mirrors
`update`. -/
def update (rs : LiveRoutes) (u : JourneyUpdate) (now : Timestamp) : LiveRoutes :=
  if u.isComplete then
    if u.stopSequence.isEmpty then rs
    else u.journeyRefs.foldl (fun rs ref => rs.put ref u.stopSequence now) rs
  else u.journeyRefs.foldl (fun rs ref => rs.touch now ref) rs

/-- The journeys seen from `cutoff` on, and the number of those forgotten. Mirrors `evict_older_than`. -/
def evict (rs : LiveRoutes) (cutoff : Timestamp) : Nat × LiveRoutes :=
  let kept := rs.filter fun _ r => cutoff ≤ r.seen
  (rs.size - kept.size, kept)

end LiveRoutes
end TransitPush
