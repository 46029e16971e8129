/-!
# References of stops

Stops are named by references such as `NSR:Quay:11`. The first part names the register that keeps
the stop, the second what it is: a quay, where vehicles stop, or a station, which has quays.
-/
namespace TransitPush.Ref

def startsWith (ref start : String) : Bool :=
  start.toList.isPrefixOf ref.toList

/-- A stop of the national register, in whatever case the register is written. Mirrors
`is_registry_stop`. -/
def isRegistryStop (ref : String) : Bool :=
  (ref.toList.take 4).map Char.toLower == "nsr:".toList

/-- Mirrors `is_station`. -/
def isStation (ref : String) : Bool :=
  startsWith ref "NSR:StopPlace:"

/-- Mirrors `is_quay`. -/
def isQuay (ref : String) : Bool :=
  startsWith ref "NSR:Quay:"

end TransitPush.Ref
