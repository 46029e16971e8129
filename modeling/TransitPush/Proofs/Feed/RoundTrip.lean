import TransitPush.Delivery.Courier
import TransitPush.Proofs.Feed.Yielding
import TransitPush.Routing.Trimming
/-!
# The wire format gives back what is sent

Whatever can be decoded is encoded to a payload that is decoded to the same, and so is every copy of an
event that is trimmed for a subscription. The payloads that are pushed are such payloads: a bare event
and the same event in an envelope are both decoded to the event.

Reading a double rounds twice, so not every double is read back from the text that is written for it.
That those in a value are is a hypothesis on the value (`Json.ReadsBack`); nothing else is assumed.

* `Format.roundTrips_of_decoded`: what a format yields returns through it.
* `settled_of_trimmed`: trimmed copies hold no free values.
* `Outgoing.post_bare`, `Outgoing.post_enveloped`: what subscribers read in the pushed payloads.
* `wire_roundTrips`: all of it.
-/
namespace TransitPush

open Json (Format)

/-! ## There and back -/

/-- The payload of a value, if there is one, is decoded to the value, and encoded from that again byte
for byte. The doubles in the value are assumed to be read back. -/
def Json.Format.RoundTrips {α : Type} (f : Format α) (x : α) : Prop :=
  (f.toJson x).ReadsBack → ∀ payload, f.toPayload x = .ok payload →
    f.ofPayload payload = .ok x ∧ (f.ofPayload payload >>= f.toPayload) = .ok payload

namespace Json.Format

variable {α : Type} {f : Format α} {x : α}

theorem Returns.roundTrips (h : f.Returns 127 x) : f.RoundTrips x := by
  intro hdoubles payload hpayload
  have hdecoded := f.ofPayload_of_toPayload h hdoubles hpayload
  refine ⟨hdecoded, ?_⟩
  rw [hdecoded]
  exact hpayload

/-- What is decoded has every property that the format yields in a whole document. -/
theorem Yields.decoded {P : α → Prop} (h : f.Yields 127 P) {payload : ByteArray}
    (hpayload : f.ofPayload payload = .ok x) : P x := by
  unfold ofPayload at hpayload
  split at hpayload
  · cases hdecode : f.decode payload.data.toList with
    | error e =>
      rw [hdecode] at hpayload
      cases hpayload
    | ok x' =>
      rw [hdecode] at hpayload
      cases hpayload
      obtain ⟨y, hread, hdone⟩ := ok_of_bind hdecode
      split at hdone
      · cases hdone
      · cases hdone
        exact h _ _ _ Source.within_document hread
  · cases hpayload

/-- If all that a format yields returns through it, what is decoded does. -/
theorem roundTrips_of_decoded {P : α → Prop} (hyields : f.Yields 127 P)
    (hreturns : ∀ x, P x → f.Returns 127 x) {payload : ByteArray}
    (hpayload : f.ofPayload payload = .ok x) : f.RoundTrips x :=
  (hreturns x (hyields.decoded hpayload)).roundTrips

end Json.Format

/-! ## Trimmed copies -/

/-- Only networks, stop places and journeys are passed on, so no free values are left. -/
theorem Situation.settled_of_trimmed {sub : Subscription} {stops : RefSet} {s copy : Situation}
    (h : s.trimmed? sub stops = some copy) (k : Nat) : copy.Settled k := by
  unfold trimmed? at h
  cases haffects : s.affects with
  | none =>
    rw [haffects] at h
    cases h
  | some scope =>
    rw [haffects] at h
    obtain ⟨-, hcopy⟩ := Option.ite_none_right_eq_some.mp h
    cases hcopy
    rintro kept hkept v hv
    cases hkept
    split at hv <;> cases hv

theorem Event.settled_of_trimmed {sub : Subscription} {stops : RefSet} {e copy : Event}
    (h : e.trimmed? sub stops = some copy) (k : Nat) : copy.Settled k := by
  cases e with
  | situation s =>
    obtain ⟨s', hs, rfl⟩ := Option.map_eq_some_iff.mp h
    exact Situation.settled_of_trimmed hs k
  | journey u =>
    cases h
    trivial

/-! ## Pushed payloads -/

def EventKind.ofBarePayload (kind : EventKind) (payload : ByteArray) : Except CodecError Event :=
  match kind with
  | .situation => (Situation.format.ofPayload payload).map .situation
  | .journey => (JourneyUpdate.format.ofPayload payload).map .journey

def Delivery.events : Delivery → List Event
  | .journeys us => us.map .journey
  | .situations ss => ss.map .situation

def Event.doubles : Event → List Double
  | .situation s => (Situation.format.toJson s).doubles
  | .journey u => (JourneyUpdate.format.toJson u).doubles

theorem Event.readsBack_iff {e : Event} :
    (Event.format.toJson e).ReadsBack ↔ ∀ d ∈ e.doubles, d.ReadsBack := by
  have hdoubles : (Event.format.toJson e).doubles = e.doubles := by
    cases e <;> exact List.append_nil _
  rw [Json.ReadsBack, hdoubles]

/-- An envelope holds the doubles of the event in it and no others. -/
theorem Envelope.doubles_delivering (e : Event) (now : Timestamp) :
    (Envelope.format.toJson (.delivering e now)).doubles = e.doubles := by
  have hdelivery : (Delivery.format.toJson (deliveryOf e)).doubles = e.doubles := by
    cases e <;> exact (List.append_nil _).trans (List.append_nil _)
  have hbody : (ServiceDelivery.record.format.toJson ⟨now, e.producer, deliveryOf e⟩).doubles =
      (Delivery.format.toJson (deliveryOf e)).doubles := by
    cases e.producer <;> exact List.append_nil _
  exact (List.append_nil _).trans (hbody.trans hdelivery)

/-- The bare payload of an event is decoded to the event. -/
theorem Event.ofBarePayload_barePayload {e : Event} {body : ByteArray} (hsettled : e.Settled 125)
    (hdoubles : ∀ d ∈ e.doubles, d.ReadsBack) (hbody : e.barePayload = .ok body) :
    e.kind.ofBarePayload body = .ok e := by
  cases e with
  | situation s =>
    have hreturns : Situation.format.Returns 127 s := Situation.returns hsettled
    simp only [kind, EventKind.ofBarePayload, Format.ofPayload_of_toPayload hreturns hdoubles hbody,
      Except.map]
  | journey u =>
    have hreturns : JourneyUpdate.format.Returns 127 u := JourneyUpdate.returns u
    simp only [kind, EventKind.ofBarePayload, Format.ofPayload_of_toPayload hreturns hdoubles hbody,
      Except.map]

section
variable {o : Outgoing} {now : Timestamp} {post : Post} {body : ByteArray}

theorem Outgoing.post_of_bare (hbare : o.subscription.enveloped = false)
    (hbody : o.event.barePayload = .ok body) : o.post now = .ok
      ⟨withoutSlashes o.subscription.address ++ o.event.kind.addressSuffix, contentType, body⟩ := by
  rw [Outgoing.post, hbare, if_neg Bool.false_ne_true, hbody]
  rfl

theorem Outgoing.post_of_enveloped (henveloped : o.subscription.enveloped = true)
    (hbody : Envelope.format.toPayload (.delivering o.event now) = .ok body) :
    o.post now = .ok ⟨o.subscription.address, contentType, body⟩ := by
  rw [Outgoing.post, henveloped, if_pos rfl, hbody]
  rfl

/-- A bare event is read as the event. -/
theorem Outgoing.post_bare (hbare : o.subscription.enveloped = false)
    (hpost : o.post now = .ok post) (hsettled : o.event.Settled 125)
    (hdoubles : ∀ d ∈ o.event.doubles, d.ReadsBack) :
    o.event.kind.ofBarePayload post.body = .ok o.event := by
  cases hbody : o.event.barePayload with
  | error e =>
    rw [Outgoing.post, hbare, if_neg Bool.false_ne_true, hbody] at hpost
    cases hpost
  | ok body =>
    rw [Outgoing.post_of_bare hbare hbody] at hpost
    cases hpost
    exact Event.ofBarePayload_barePayload hsettled hdoubles hbody

/-- An event in an envelope is read as the only event of its delivery, from its own producer. -/
theorem Outgoing.post_enveloped (henveloped : o.subscription.enveloped = true)
    (hpost : o.post now = .ok post) (hsettled : o.event.Settled 121)
    (hdoubles : ∀ d ∈ o.event.doubles, d.ReadsBack) :
    ∃ d : Delivery, d.events = [o.event] ∧
      Envelope.format.ofPayload post.body = .ok ⟨.current, .service ⟨now, o.event.producer, d⟩⟩ := by
  cases hbody : Envelope.format.toPayload (.delivering o.event now) with
  | error e =>
    rw [Outgoing.post, henveloped, if_pos rfl, hbody] at hpost
    cases hpost
  | ok body =>
    rw [Outgoing.post_of_enveloped henveloped hbody] at hpost
    cases hpost
    have hdelivery : (Envelope.deliveryOf o.event).Settled 121 := by
      cases he : o.event with
      | situation s =>
        rw [he] at hsettled
        exact List.forall_mem_singleton.mpr hsettled
      | journey u => trivial
    have hreturns : Envelope.format.Returns 127 (.delivering o.event now) :=
      Envelope.returns hdelivery
    have hreads : (Envelope.format.toJson (.delivering o.event now)).ReadsBack := by
      rw [Json.ReadsBack, Envelope.doubles_delivering]
      exact hdoubles
    exact ⟨Envelope.deliveryOf o.event, by cases o.event <;> rfl,
      Format.ofPayload_of_toPayload hreturns hreads hbody⟩

end

/-! ## The whole format -/

/-- An event that can be sent: it is kept by the formats of events and of bare documents, and
subscribers of either form read it in what is pushed to them. The doubles in it are assumed to be read
back. -/
structure Event.Travels (e : Event) : Prop where
  kept : Event.format.RoundTrips e
  keptSituation : ∀ s, e = .situation s → Situation.format.RoundTrips s
  keptJourney : ∀ u, e = .journey u → JourneyUpdate.format.RoundTrips u
  bare : (Event.format.toJson e).ReadsBack → ∀ (o : Outgoing) now post, o.event = e →
    o.subscription.enveloped = false → o.post now = .ok post →
    e.kind.ofBarePayload post.body = .ok e
  enveloped : (Event.format.toJson e).ReadsBack → ∀ (o : Outgoing) now post, o.event = e →
    o.subscription.enveloped = true → o.post now = .ok post →
    ∃ d : Delivery, d.events = [e] ∧
      Envelope.format.ofPayload post.body = .ok ⟨.current, .service ⟨now, e.producer, d⟩⟩

theorem Event.travels_of_settled {e : Event} (h : ∀ k, e.Settled k) : e.Travels where
  kept := (Event.returns (h _) : Event.format.Returns 127 e).roundTrips
  keptSituation s hs := by
    subst hs
    exact (Situation.returns (h _) : Situation.format.Returns 127 s).roundTrips
  keptJourney u _ := (JourneyUpdate.returns u : JourneyUpdate.format.Returns 127 u).roundTrips
  bare hdoubles o now post ho hbare hpost := by
    subst ho
    exact Outgoing.post_bare hbare hpost (h _) (Event.readsBack_iff.mp hdoubles)
  enveloped hdoubles o now post ho henveloped hpost := by
    subst ho
    exact Outgoing.post_enveloped henveloped hpost (h _) (Event.readsBack_iff.mp hdoubles)

/-- **What is sent is what is received.** Every value that can be decoded is decoded again from its own
payload, and every copy of an event that is trimmed for a subscription travels: bare or in an envelope
it is read as the same event. -/
theorem wire_roundTrips :
    (∀ payload e, Event.format.ofPayload payload = .ok e → Event.format.RoundTrips e) ∧
    (∀ payload s, Situation.format.ofPayload payload = .ok s → Situation.format.RoundTrips s) ∧
    (∀ payload u, JourneyUpdate.format.ofPayload payload = .ok u →
      JourneyUpdate.format.RoundTrips u) ∧
    (∀ payload s, Scope.format.ofPayload payload = .ok s → Scope.format.RoundTrips s) ∧
    (∀ payload e, Envelope.format.ofPayload payload = .ok e → Envelope.format.RoundTrips e) ∧
    (∀ payload s, Subscription.format.ofPayload payload = .ok s →
      Subscription.format.RoundTrips s) ∧
    ∀ (e : Event) sub stops copy, e.trimmed? sub stops = some copy → copy.Travels := by
  refine ⟨fun _ _ h => ?_, fun _ _ h => ?_, fun _ u _ => ?_, fun _ _ h => ?_, fun _ _ h => ?_,
    fun _ _ h => ?_, fun e sub stops copy h => ?_⟩
  · exact Format.roundTrips_of_decoded Event.yields (fun _ => Event.returns) h
  · exact Format.roundTrips_of_decoded Situation.yields (fun _ => Situation.returns) h
  · exact (JourneyUpdate.returns u : JourneyUpdate.format.Returns 127 u).roundTrips
  · exact Format.roundTrips_of_decoded Scope.yields (fun _ => Scope.returns) h
  · exact Format.roundTrips_of_decoded Envelope.yields (fun _ => Envelope.returns) h
  · exact Format.roundTrips_of_decoded Subscription.yields (fun _ => Subscription.returns) h
  · exact Event.travels_of_settled (Event.settled_of_trimmed h)

/-- The journeys of one line along a stop and the shape of the way to the next one. -/
def delayedJourney : AffectedJourney :=
  ⟨some "RUT:Line:1", [], [⟨some ⟨true, [.stop ⟨some "NSR:Quay:7", none⟩,
    .link [(⟨false, 8430175552484147, -47, by decide⟩, ⟨false, 6051711999279104, -49, by decide⟩)]]⟩⟩]⟩

/-- A situation made in a leap second, with a number to be escaped and free extensions. -/
def delayReport : Situation :=
  { Situation.blank with
    number := some "RUT:\"1\"\n"
    version := some 18446744073709551615
    participant := some "RUT"
    created := some ⟨1483228799, 1500000000, by decide⟩
    affects := some { Scope.empty with
      extensions := some (.object [
        ("delay", .number (.double ⟨false, 6755399441055744, -52, by decide⟩)), ("note", .list [.null])])
      journeys := [delayedJourney] } }

/-- The copy of the report that subscribers of the line get. -/
def delayCopy : Situation :=
  { delayReport with affects := some { Scope.empty with journeys := [delayedJourney] } }

def lineSubscriber (enveloped : Bool) : Subscription :=
  { (Subscription.pushing "line" "http://line.example").withLine "RUT:Line:1" with enveloped }

/-- The report is kept, and its copy is read by both kinds of subscribers. -/
theorem wire_roundTrips_delayReport : ∃ payload bare enveloped,
    Event.format.ofPayload payload = .ok (.situation delayReport) ∧
    (Event.format.ofPayload payload >>= Event.format.toPayload) = .ok payload ∧
    (Event.situation delayReport).trimmed? (lineSubscriber false) ∅ = some (.situation delayCopy) ∧
    Outgoing.post ⟨lineSubscriber false, .situation delayCopy⟩ .epoch = .ok bare ∧
    EventKind.ofBarePayload .situation bare.body = .ok (.situation delayCopy) ∧
    Outgoing.post ⟨lineSubscriber true, .situation delayCopy⟩ .epoch = .ok enveloped ∧
    ∃ d : Delivery, d.events = [.situation delayCopy] ∧ Envelope.format.ofPayload enveloped.body =
      .ok ⟨.current, .service ⟨.epoch, some "RUT", d⟩⟩ := by
  have hpayload := Event.format.toPayload_of_size (x := .situation delayReport) (by decide +kernel)
  have hdoubles : (Event.format.toJson (.situation delayReport)).ReadsBack := by decide +kernel
  have hsettled : (Event.situation delayReport).Settled 124 := by
    rintro scope hscope v hv
    cases hscope
    cases hv
    exact ⟨by decide +kernel, nofun, by decide +kernel⟩
  have hdecoded := Event.format.ofPayload_of_toPayload (Event.returns hsettled) hdoubles hpayload
  have hcopy : (Event.situation delayReport).trimmed? (lineSubscriber false) ∅ =
      some (.situation delayCopy) := by decide +kernel
  have hcopyDoubles : (Event.format.toJson (.situation delayCopy)).ReadsBack := by decide +kernel
  have hbody := Situation.format.toPayload_of_size (x := delayCopy) (by decide +kernel)
  have hbare : Outgoing.post ⟨lineSubscriber false, .situation delayCopy⟩ .epoch = _ :=
    Outgoing.post_of_bare rfl hbody
  have hletter := Envelope.format.toPayload_of_size
    (x := .delivering (.situation delayCopy) .epoch) (by decide +kernel)
  have henveloped : Outgoing.post ⟨lineSubscriber true, .situation delayCopy⟩ .epoch = _ :=
    Outgoing.post_of_enveloped rfl hletter
  obtain ⟨hevents, -, -, -, -, -, htrimmed⟩ := wire_roundTrips
  have htravels := htrimmed _ _ _ _ hcopy
  exact ⟨_, _, _, hdecoded, (hevents _ _ hdecoded hdoubles _ hpayload).2, hcopy, hbare,
    htravels.bare hcopyDoubles _ _ _ rfl rfl hbare, henveloped,
    htravels.enveloped hcopyDoubles _ _ _ rfl rfl henveloped⟩

end TransitPush
