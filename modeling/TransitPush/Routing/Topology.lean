import TransitPush.Json.Format
import TransitPush.Table
/-!
# Topology

Stations group quays. A topology knows the station of each quay and the quays of each station.
-/
namespace TransitPush

structure Topology where
  quays : Table RefSet
  stations : Table String
deriving DecidableEq

namespace Topology

def empty : Topology := ⟨∅, ∅⟩

/-- The topology with quays added to a station. Mirrors `with_station`. -/
def withStation (t : Topology) (station : String) (quays : List String) : Topology where
  quays := t.quays.insert station (((t.quays.get? station).getD ∅).insertAll quays)
  stations := quays.foldl (fun ss quay => ss.insert quay station) t.stations

/-- Mirrors `station_of`. -/
def stationOf? (t : Topology) (stop : String) : Option String :=
  t.stations.get? stop

/-- Mirrors `quays_of`. -/
def quaysOf (t : Topology) (station : String) : RefSet :=
  (t.quays.get? station).getD ∅

def stationCount (t : Topology) : Nat :=
  t.quays.size

/-- The topology of a list of stations with their quays, added in order. -/
def ofStations (ss : List (String × List String)) : Topology :=
  ss.foldl (fun t s => t.withStation s.1 s.2) empty

/-! ## Documents -/

open Json (Fault Format Key Node Source)

/-- The quays of each station, the last list of each. -/
def readStations (source : Source) : List (Key × Node) → Except Fault (Table (List String))
  | [] => .ok ∅
  | (k, v) :: rest => do
    let station ← k
    let quays ← (Format.list .text).read source v
    let after ← readStations source rest
    .ok (if after.contains station then after else after.insert station quays)

/-- The topology of an object that maps each station to the list of its quays. -/
def read (source : Source) : Node → Except Fault Topology
  | .object members ending => do
    let inner ← source.enter
    let stations ← readStations inner members
    ending.check
    .ok (ofStations stations.entries)
  | n => .error n.refusal

/-- The topology that a text holds. Mirrors `from_json`. -/
def decode (text : String) : Except Fault Topology :=
  (Json.Document.parse text.toUTF8.data.toList).decode (read .document)

end Topology
end TransitPush
