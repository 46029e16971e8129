import TransitPush.Feed.Ref
import TransitPush.Feed.Wire
import TransitPush.Table
import TransitPush.Text.Blank
import TransitPush.Time.Interval
/-!
# Subscriptions

A subscription says who wants which events, and where to push them: criteria by stops, lines,
vehicles and codespaces, a push address, and whether events come in envelopes.

* `Subscription.normalized`: names, address and criteria without stray blanks.
* `Subscription.check`: what a subscription must have before it is stored.
* `reservedName`: names that begin with `SIRI-XML` belong to subscribers by envelope.
-/
namespace TransitPush

abbrev SubscriptionId := String

structure Subscription where
  id : SubscriptionId
  name : String
  fromStops : RefSet
  toStops : RefSet
  lineRefs : RefSet
  vehicleRefs : RefSet
  codespaces : RefSet
  address : String
  enveloped : Bool
  failedPushes : UInt32
  heartbeat : Option Interval
  terminatesAt : Option Timestamp
  requestor : Option String
  clientRef : Option String
deriving DecidableEq

/-- The start of the names that only subscribers by envelope have. -/
def reservedStart : String := "SIRI-XML"

/-- The name of an enveloped subscription, made from the references of its subscriber. Mirrors
`reserved_name`. -/
def reservedName (requestor clientRef : String) : String :=
  reservedStart ++ "-" ++ requestor ++ "-" ++ clientRef

namespace Subscription

def blank : Subscription :=
  ⟨"", "", ∅, ∅, ∅, ∅, ∅, "", false, 0, none, none, none, none⟩

/-- A subscription without criteria that is pushed to an address. Mirrors `new`. -/
def pushing (name address : String) : Subscription :=
  { blank with name, address }

/-! ## Criteria -/

/-- The subscription to journeys from one more stop, and to one more. -/
def withStops (s : Subscription) (origin destination : String) : Subscription :=
  { s with fromStops := s.fromStops.insert origin, toStops := s.toStops.insert destination }

def withLine (s : Subscription) (line : String) : Subscription :=
  { s with lineRefs := s.lineRefs.insert line }

def withVehicle (s : Subscription) (vehicle : String) : Subscription :=
  { s with vehicleRefs := s.vehicleRefs.insert vehicle }

def withCodespace (s : Subscription) (codespace : String) : Subscription :=
  { s with codespaces := s.codespaces.insert codespace }

def hasNoStops (s : Subscription) : Bool :=
  s.fromStops.isEmpty && s.toStops.isEmpty

/-- All events of some codespaces are wanted, whatever stops and lines they concern. Mirrors
`is_firehose`. -/
def isFirehose (s : Subscription) : Bool :=
  s.hasNoStops && s.lineRefs.isEmpty && !s.codespaces.isEmpty

/-- The stops, those to travel from first. -/
def stops (s : Subscription) : List String :=
  s.fromStops.toList ++ s.toStops.toList

def hasReservedName (s : Subscription) : Bool :=
  Ref.startsWith s.name reservedStart

/-! ## Normal form -/

/-- The references without blanks around them; blank ones are dropped. Mirrors `normalize_set`. -/
def trimmedRefs (rs : RefSet) : RefSet :=
  .ofList ((rs.toList.map Text.trim).filter (· ≠ ""))

/-- The subscription without blanks around its name, address and criteria. Mirrors `normalize`. -/
def normalized (s : Subscription) : Subscription :=
  { s with
    name := Text.trim s.name
    address := Text.trim s.address
    fromStops := trimmedRefs s.fromStops
    toStops := trimmedRefs s.toStops
    lineRefs := trimmedRefs s.lineRefs
    vehicleRefs := trimmedRefs s.vehicleRefs
    codespaces := trimmedRefs s.codespaces }

/-! ## Checks -/

/-- Why a subscription cannot be stored. -/
inductive Problem where
  | missingAddress
  | noCriteria
  | asymmetricStops
  | reservedName (name : String)
deriving DecidableEq

def Problem.message : Problem → String
  | .missingAddress => "Push address is required"
  | .noCriteria => "No criteria given, must have at least one line ref, one codespace or a " ++
      "from stop and a to stop"
  | .asymmetricStops => "Must have both from and to stops"
  | .reservedName name => "Illegal name (can't start with 'SIRI-XML'): " ++ name

/-- The first problem of a subscription, if it has one. Vehicles alone are no criterion. Mirrors
`validate`. -/
def check (s : Subscription) (allowReserved : Bool) : Except Problem Unit :=
  if s.address = "" then .error .missingAddress
  else if s.hasNoStops && s.codespaces.isEmpty && s.lineRefs.isEmpty then .error .noCriteria
  else if s.fromStops.isEmpty ≠ s.toStops.isEmpty then .error .asymmetricStops
  else if !allowReserved && s.hasReservedName then .error (.reservedName s.name)
  else .ok ()

/-! ## Failed pushes -/

/-- One more failed push; the counter stays at its greatest value. Mirrors
`increase_failed_push_counter`. -/
def countFailure (s : Subscription) : Subscription :=
  if s.failedPushes.toNat + 1 < UInt32.size then { s with failedPushes := s.failedPushes + 1 } else s

def clearFailures (s : Subscription) : Subscription :=
  { s with failedPushes := 0 }

/-! ## Wire format -/

open Json (Format Record)

/-- A set of references is a list; its order and repetitions do not count. -/
def refSetFormat : Format RefSet :=
  .filtered (.list .text) RefSet.toList fun rs => some (.ofList rs)

/-- An interval is its whole seconds. -/
def intervalFormat : Format Interval :=
  .filtered .uint64 Interval.seconds fun n => some (.ofSeconds n)

def record : Record Subscription where
  blank := .blank
  members := [
    .defaulted "id" .text (·.id) fun v x => { x with id := v },
    .defaulted "name" .text (·.name) fun v x => { x with name := v },
    .defaulted "fromStops" refSetFormat (·.fromStops) fun v x => { x with fromStops := v },
    .defaulted "toStops" refSetFormat (·.toStops) fun v x => { x with toStops := v },
    .defaulted "lineRefs" refSetFormat (·.lineRefs) fun v x => { x with lineRefs := v },
    .defaulted "vehicleRefs" refSetFormat (·.vehicleRefs) fun v x => { x with vehicleRefs := v },
    .defaulted "codespaces" refSetFormat (·.codespaces) fun v x => { x with codespaces := v },
    .defaulted "pushAddress" .text (·.address) fun v x => { x with address := v },
    .defaulted "enveloped" .bool (·.enveloped) fun v x => { x with enveloped := v },
    .defaulted "failedPushCounter" .uint32 (·.failedPushes) fun v x =>
      { x with failedPushes := v },
    .optional "heartbeatInterval" intervalFormat (·.heartbeat) fun v x => { x with heartbeat := v },
    .optional "initialTerminationTime" Timestamp.format (·.terminatesAt) fun v x =>
      { x with terminatesAt := v },
    .optional "requestorRef" .text (·.requestor) fun v x => { x with requestor := v },
    .optional "clientSubscriptionRef" .text (·.clientRef) fun v x => { x with clientRef := v }]

def format : Format Subscription := record.format

end Subscription
end TransitPush
