import TransitPush.Feed.Envelope
import TransitPush.Json.Format
import TransitPush.Time.Rfc3339
/-!
# The wire format of the feed

How situations, journey updates, events and envelopes are written as JSON and read from it. Members
stand in the order of their tables here. A member that is absent or empty is left out, apart from the
reference that a stop, line or period is about, which is written `null`.

* `Situation.format`, `JourneyUpdate.format`, `Scope.format`: the bare documents.
* `Event.format`: a document under the key of its kind.
* `Envelope.format`: the version beside one key for the body.
-/
namespace TransitPush

open Json (Format Member Record Variant)

def Timestamp.format : Format Timestamp :=
  .filtered .text Timestamp.toText Timestamp.ofText?

def Version.format : Format Version :=
  .filtered .text Version.toText fun s => (Version.ofText? s).toOption

/-! ## Situations -/

def ValidityPeriod.record : Record ValidityPeriod where
  blank := ⟨none, none⟩
  members := [
    .nullable "startTime" Timestamp.format (·.start) fun v x => { x with start := v },
    .optional "endTime" Timestamp.format (·.finish) fun v x => { x with finish := v }]

def StopPoint.record : Record StopPoint where
  blank := ⟨none, none⟩
  members := [
    .nullable "stopPointRef" .text (·.ref) fun v x => { x with ref := v },
    .optional "stopPointName" .text (·.name) fun v x => { x with name := v }]

def StopPlace.record : Record StopPlace where
  blank := ⟨none, none⟩
  members := [
    .nullable "stopPlaceRef" .text (·.ref) fun v x => { x with ref := v },
    .optional "placeName" .text (·.name) fun v x => { x with name := v }]

def NetworkLine.record : Record NetworkLine where
  blank := ⟨none⟩
  members := [.nullable "lineRef" .text (·.ref) fun v x => { x with ref := v }]

def Network.record : Record Network where
  blank := ⟨none, []⟩
  members := [
    .optional "networkRef" .text (·.ref) fun v x => { x with ref := v },
    .listed "affectedLines" NetworkLine.record.format (·.lines) fun v x => { x with lines := v }]

/-- The shape of a link, as a row of positions. -/
def RoutePoint.linkRecord : Record (List (Double × Double)) where
  blank := []
  members := [.listed "points" (.both .double .double) id fun v _ => v]

/-- A route point has its kind as tag among the members of its content. -/
def RoutePoint.format : Format RoutePoint :=
  .tagged "type"
    [.of "stopPoint" StopPoint.record.format .stop, .of "linkProjection" linkRecord.format .link]
    fun
      | .stop p => ("stopPoint", StopPoint.record.write p)
      | .link ps => ("linkProjection", linkRecord.write ps)

def RouteStops.record : Record RouteStops where
  blank := ⟨false, []⟩
  members := [
    .defaulted "affectedOnly" .bool (·.affectedOnly) fun v x => { x with affectedOnly := v },
    .listed "points" RoutePoint.format (·.points) fun v x => { x with points := v }]

def Route.record : Record Route where
  blank := ⟨none⟩
  members := [
    .optional "stopPoints" RouteStops.record.format (·.stops) fun v x => { x with stops := v }]

def AffectedJourney.record : Record AffectedJourney where
  blank := ⟨none, [], []⟩
  members := [
    .optional "lineRef" .text (·.lineRef) fun v x => { x with lineRef := v },
    .listed "vehicleJourneyRefs" .text (·.journeyRefs) fun v x => { x with journeyRefs := v },
    .listed "routes" Route.record.format (·.routes) fun v x => { x with routes := v }]

def Scope.record : Record Scope where
  blank := .empty
  members := [
    .optional "areaOfInterest" .text (·.area) fun v x => { x with area := v },
    .optional "extensions" .free (·.extensions) fun v x => { x with extensions := v },
    .listed "operators" .text (·.operators) fun v x => { x with operators := v },
    .listed "networks" Network.record.format (·.networks) fun v x => { x with networks := v },
    .listed "places" .text (·.places) fun v x => { x with places := v },
    .listed "stopPoints" StopPoint.record.format (·.stopPoints) fun v x =>
      { x with stopPoints := v },
    .listed "stopPlaces" StopPlace.record.format (·.stopPlaces) fun v x =>
      { x with stopPlaces := v },
    .listed "vehicleJourneys" AffectedJourney.record.format (·.journeys) fun v x =>
      { x with journeys := v },
    .listed "roads" .text (·.roads) fun v x => { x with roads := v },
    .listed "vehicles" .text (·.vehicles) fun v x => { x with vehicles := v }]

def Scope.format : Format Scope := Scope.record.format

def Situation.record : Record Situation where
  blank := .blank
  members := [
    .optional "situationNumber" .text (·.number) fun v x => { x with number := v },
    .optional "version" .uint64 (·.version) fun v x => { x with version := v },
    .optional "participantRef" .text (·.participant) fun v x => { x with participant := v },
    .optional "creationTime" Timestamp.format (·.created) fun v x => { x with created := v },
    .listed "validityPeriods" ValidityPeriod.record.format (·.validity) fun v x =>
      { x with validity := v },
    .listed "summaries" .text (·.summaries) fun v x => { x with summaries := v },
    .listed "descriptions" .text (·.descriptions) fun v x => { x with descriptions := v },
    .optional "affects" Scope.format (·.affects) fun v x => { x with affects := v }]

def Situation.format : Format Situation := Situation.record.format

/-! ## Journey updates -/

def Call.record : Record Call where
  blank := .blank
  members := [
    .nullable "stopPointRef" .text (·.stopRef) fun v x => { x with stopRef := v },
    .optional "stopPointName" .text (·.stopName) fun v x => { x with stopName := v },
    .optional "aimedArrivalTime" Timestamp.format (·.aimedArrival) fun v x =>
      { x with aimedArrival := v },
    .optional "expectedArrivalTime" Timestamp.format (·.expectedArrival) fun v x =>
      { x with expectedArrival := v },
    .optional "aimedDepartureTime" Timestamp.format (·.aimedDeparture) fun v x =>
      { x with aimedDeparture := v },
    .optional "expectedDepartureTime" Timestamp.format (·.expectedDeparture) fun v x =>
      { x with expectedDeparture := v },
    .optional "departurePlatformName" .text (·.platform) fun v x => { x with platform := v }]

def JourneyUpdate.record : Record JourneyUpdate where
  blank := .blank
  members := [
    .optional "lineRef" .text (·.lineRef) fun v x => { x with lineRef := v },
    .optional "directionRef" .text (·.directionRef) fun v x => { x with directionRef := v },
    .optional "datedVehicleJourneyRef" .text (·.datedJourneyRef) fun v x =>
      { x with datedJourneyRef := v },
    .optional "vehicleRef" .text (·.vehicleRef) fun v x => { x with vehicleRef := v },
    .optional "operatorRef" .text (·.operatorRef) fun v x => { x with operatorRef := v },
    .optional "dataSource" .text (·.source) fun v x => { x with source := v },
    .optional "cancellation" .bool (·.cancellation) fun v x => { x with cancellation := v },
    .optional "isCompleteStopSequence" .bool (·.complete) fun v x => { x with complete := v },
    .listed "recordedCalls" Call.record.format (·.recorded) fun v x => { x with recorded := v },
    .listed "estimatedCalls" Call.record.format (·.estimated) fun v x => { x with estimated := v }]

def JourneyUpdate.format : Format JourneyUpdate := JourneyUpdate.record.format

/-! ## Events -/

/-- An event under the key of its kind. -/
def Event.format : Format Event :=
  .choice
    [.of EventKind.situation.key Situation.format .situation,
      .of EventKind.journey.key JourneyUpdate.format .journey]
    fun
      | .situation s => (EventKind.situation.key, Situation.format.toJson s)
      | .journey u => (EventKind.journey.key, JourneyUpdate.format.toJson u)

/-! ## Envelopes -/

/-- Events of one kind under the name of their service. -/
def Delivery.format : Format Delivery :=
  .choice
    [.of "estimatedTimetable" (.list JourneyUpdate.format) .journeys,
      .of "situationExchange" (.list Situation.format) .situations]
    fun
      | .journeys us => ("estimatedTimetable", (Format.list JourneyUpdate.format).toJson us)
      | .situations ss => ("situationExchange", (Format.list Situation.format).toJson ss)

def ServiceDelivery.record : Record ServiceDelivery where
  blank := ⟨.epoch, none, .journeys []⟩
  members := [
    .required "responseTimestamp" Timestamp.format (·.time) fun v x => { x with time := v },
    .optional "producerRef" .text (·.producer) fun v x => { x with producer := v },
    .required "delivery" Delivery.format (·.delivery) fun v x => { x with delivery := v }]

def Heartbeat.record : Record Heartbeat where
  blank := ⟨.epoch, none⟩
  members := [
    .required "requestTimestamp" Timestamp.format (·.time) fun v x => { x with time := v },
    .optional "producerRef" .text (·.producer) fun v x => { x with producer := v }]

def Termination.record : Record Termination where
  blank := ⟨.epoch, none, none⟩
  members := [
    .required "responseTimestamp" Timestamp.format (·.time) fun v x => { x with time := v },
    .optional "subscriberRef" .text (·.subscriber) fun v x => { x with subscriber := v },
    .optional "subscriptionRef" .text (·.subscription) fun v x => { x with subscription := v }]

namespace Envelope

open Json (Fault Key Node Source)

def variants : List (Variant EnvelopeBody) :=
  [.of "serviceDelivery" ServiceDelivery.record.format .service,
    .of "heartbeatNotification" Heartbeat.record.format .heartbeat,
    .of "subscriptionTerminatedNotification" Termination.record.format .terminated]

def writeBody : EnvelopeBody → String × Json
  | .service d => ("serviceDelivery", ServiceDelivery.record.format.toJson d)
  | .heartbeat h => ("heartbeatNotification", Heartbeat.record.format.toJson h)
  | .terminated t =>
    ("subscriptionTerminatedNotification", Termination.record.format.toJson t)

/-- The version, once, and every other member as it stands. -/
def readMembers (source : Source) (version : Option Version) :
    List (Key × Node) → Except Fault (Option Version × List (String × Json))
  | [] => .ok (version, [])
  | (k, v) :: rest => do
    let name ← k
    if name = "version" then
      if version.isSome then .error .mismatch
      else do
        let v ← Version.format.read source v
        readMembers source (some v) rest
    else do
      let v ← v.free source
      let (version, members) ← readMembers source version rest
      .ok (version, (name, v) :: members)

/-- The body under the first key that names one. -/
def readBody : List (String × Json) → Except Fault EnvelopeBody
  | [] => .error .mismatch
  | (k, v) :: rest =>
    match variants.find? (·.name == k) with
    | some variant => variant.read .held (.ofJson v)
    | none => readBody rest

/-- The version beside the key of the body. Other members are ignored, and an envelope is never
written as a list. -/
def format : Format Envelope where
  toJson e := .object [("version", Version.format.toJson e.version), writeBody e.body]
  read
    | source, .object members ending => do
      let inner ← source.enter
      let (version, members) ← readMembers inner none members
      ending.check
      match version with
      | some version => do
        let body ← readBody members
        .ok ⟨version, body⟩
      | none => .error .mismatch
    | _, n => .error n.refusal

end Envelope
end TransitPush
