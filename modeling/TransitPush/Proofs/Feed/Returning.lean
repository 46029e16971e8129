import TransitPush.Proofs.Json.Returning
import TransitPush.Proofs.Table
import TransitPush.Proofs.Text.Decimal
import TransitPush.Proofs.Time.Text
import TransitPush.Subscription
/-!
# Feed values that return

Which values of the feed are read back from what is written for them, and under how many levels of
nesting. Nearly all are: of a scope the free extensions must be settled and not too deep, and the
heartbeat interval of a subscription must be one of whole seconds.

* `Scope.returns`, `Situation.returns`, `JourneyUpdate.returns`, `Event.returns`, `Envelope.returns`,
  `Subscription.returns`: the documents.
-/
namespace TransitPush

open Json (Format Member Record Variant)

variable {k : Nat}

/-! ## Texts with a meaning -/

theorem Timestamp.returns {t : Timestamp} : Timestamp.format.Returns k t :=
  Format.filtered_returns Format.text_returns (Timestamp.ofText?_toText t)

theorem Version.returns {v : Version} : Version.format.Returns k v := by
  refine Format.filtered_returns Format.text_returns ?_
  rw [Version.ofText?_toText]
  rfl

/-! ## Situations -/

theorem ValidityPeriod.returns (p : ValidityPeriod) : ValidityPeriod.record.format.Returns (k + 1) p :=
  Record.returns (by decide) <|
    .cons (Member.gives_nullable fun _ _ => Timestamp.returns) <|
    .cons (Member.gives_optional rfl fun _ _ => Timestamp.returns) <|
    .nil rfl

theorem StopPoint.returns (p : StopPoint) : StopPoint.record.format.Returns (k + 1) p :=
  Record.returns (by decide) <|
    .cons (Member.gives_nullable fun _ _ => Format.text_returns) <|
    .cons (Member.gives_optional rfl fun _ _ => Format.text_returns) <|
    .nil rfl

theorem StopPlace.returns (p : StopPlace) : StopPlace.record.format.Returns (k + 1) p :=
  Record.returns (by decide) <|
    .cons (Member.gives_nullable fun _ _ => Format.text_returns) <|
    .cons (Member.gives_optional rfl fun _ _ => Format.text_returns) <|
    .nil rfl

theorem NetworkLine.returns (l : NetworkLine) : NetworkLine.record.format.Returns (k + 1) l :=
  Record.returns (by decide) <|
    .cons (Member.gives_nullable fun _ _ => Format.text_returns) <|
    .nil rfl

theorem Network.returns (n : Network) : Network.record.format.Returns (k + 3) n :=
  Record.returns (by decide) <|
    .cons (Member.gives_optional rfl fun _ _ => Format.text_returns) <|
    .cons (Member.gives_listed rfl fun l _ => NetworkLine.returns l) <|
    .nil rfl

theorem RoutePoint.link_returns (positions : List (Double × Double)) :
    RoutePoint.linkRecord.format.Returns (k + 3) positions :=
  Record.returns (by decide) <|
    .cons (Member.gives_listed rfl fun _ _ =>
      Format.both_returns Format.double_returns Format.double_returns) <|
    .nil rfl

/-- A route point returns whatever its kind; neither content has a member with the tag's name. -/
theorem RoutePoint.returns (p : RoutePoint) : RoutePoint.format.Returns (k + 3) p := by
  cases p with
  | stop point => exact Format.tagged_returns rfl rfl (by decide) (StopPoint.returns point)
  | link positions => exact Format.tagged_returns rfl rfl (by decide) (RoutePoint.link_returns positions)

theorem RouteStops.returns (s : RouteStops) : RouteStops.record.format.Returns (k + 5) s :=
  Record.returns (by decide) <|
    .cons (Member.gives_defaulted Format.bool_returns) <|
    .cons (Member.gives_listed rfl fun p _ => RoutePoint.returns p) <|
    .nil rfl

theorem Route.returns (r : Route) : Route.record.format.Returns (k + 6) r :=
  Record.returns (by decide) <|
    .cons (Member.gives_optional rfl fun s _ => RouteStops.returns s) <|
    .nil rfl

theorem AffectedJourney.returns (j : AffectedJourney) :
    AffectedJourney.record.format.Returns (k + 8) j :=
  Record.returns (by decide) <|
    .cons (Member.gives_optional rfl fun _ _ => Format.text_returns) <|
    .cons (Member.gives_listed rfl fun _ _ => Format.text_returns) <|
    .cons (Member.gives_listed rfl fun r _ => Route.returns r) <|
    .nil rfl

/-- The free extensions of a scope, if it has any, are read back as themselves. -/
def Scope.Settled (k : Nat) (s : Scope) : Prop :=
  ∀ v, s.extensions = some v → v.Free k

theorem Scope.returns {s : Scope} (h : s.Settled (k + 9)) : Scope.format.Returns (k + 10) s :=
  Record.returns (by decide) <|
    .cons (Member.gives_optional rfl fun _ _ => Format.text_returns) <|
    .cons (Member.gives_optional rfl fun v hv => Format.free_returns (h v hv)) <|
    .cons (Member.gives_listed rfl fun _ _ => Format.text_returns) <|
    .cons (Member.gives_listed rfl fun n _ => Network.returns n) <|
    .cons (Member.gives_listed rfl fun _ _ => Format.text_returns) <|
    .cons (Member.gives_listed rfl fun p _ => StopPoint.returns p) <|
    .cons (Member.gives_listed rfl fun p _ => StopPlace.returns p) <|
    .cons (Member.gives_listed rfl fun j _ => AffectedJourney.returns j) <|
    .cons (Member.gives_listed rfl fun _ _ => Format.text_returns) <|
    .cons (Member.gives_listed rfl fun _ _ => Format.text_returns) <|
    .nil rfl

def Situation.Settled (k : Nat) (s : Situation) : Prop :=
  ∀ scope, s.affects = some scope → scope.Settled k

theorem Situation.returns {s : Situation} (h : s.Settled (k + 9)) :
    Situation.format.Returns (k + 11) s :=
  Record.returns (by decide) <|
    .cons (Member.gives_optional rfl fun _ _ => Format.text_returns) <|
    .cons (Member.gives_optional rfl fun _ _ => Format.uint64_returns) <|
    .cons (Member.gives_optional rfl fun _ _ => Format.text_returns) <|
    .cons (Member.gives_optional rfl fun _ _ => Timestamp.returns) <|
    .cons (Member.gives_listed rfl fun p _ => ValidityPeriod.returns p) <|
    .cons (Member.gives_listed rfl fun _ _ => Format.text_returns) <|
    .cons (Member.gives_listed rfl fun _ _ => Format.text_returns) <|
    .cons (Member.gives_optional rfl fun scope hscope => Scope.returns (h scope hscope)) <|
    .nil rfl

/-! ## Journey updates -/

theorem Call.returns (c : Call) : Call.record.format.Returns (k + 1) c :=
  Record.returns (by decide) <|
    .cons (Member.gives_nullable fun _ _ => Format.text_returns) <|
    .cons (Member.gives_optional rfl fun _ _ => Format.text_returns) <|
    .cons (Member.gives_optional rfl fun _ _ => Timestamp.returns) <|
    .cons (Member.gives_optional rfl fun _ _ => Timestamp.returns) <|
    .cons (Member.gives_optional rfl fun _ _ => Timestamp.returns) <|
    .cons (Member.gives_optional rfl fun _ _ => Timestamp.returns) <|
    .cons (Member.gives_optional rfl fun _ _ => Format.text_returns) <|
    .nil rfl

theorem JourneyUpdate.returns (u : JourneyUpdate) : JourneyUpdate.format.Returns (k + 3) u :=
  Record.returns (by decide) <|
    .cons (Member.gives_optional rfl fun _ _ => Format.text_returns) <|
    .cons (Member.gives_optional rfl fun _ _ => Format.text_returns) <|
    .cons (Member.gives_optional rfl fun _ _ => Format.text_returns) <|
    .cons (Member.gives_optional rfl fun _ _ => Format.text_returns) <|
    .cons (Member.gives_optional rfl fun _ _ => Format.text_returns) <|
    .cons (Member.gives_optional rfl fun _ _ => Format.text_returns) <|
    .cons (Member.gives_optional rfl fun _ _ => Format.bool_returns) <|
    .cons (Member.gives_optional rfl fun _ _ => Format.bool_returns) <|
    .cons (Member.gives_listed rfl fun c _ => Call.returns c) <|
    .cons (Member.gives_listed rfl fun c _ => Call.returns c) <|
    .nil rfl

/-! ## Events -/

def Event.Settled (k : Nat) : Event → Prop
  | .situation s => s.Settled k
  | .journey _ => True

theorem Event.returns {e : Event} (h : e.Settled (k + 9)) : Event.format.Returns (k + 12) e := by
  cases e with
  | situation s => exact Format.choice_returns rfl rfl (Situation.returns h)
  | journey u => exact Format.choice_returns rfl rfl (JourneyUpdate.returns u)

/-! ## Envelopes -/

def Delivery.Settled (k : Nat) : Delivery → Prop
  | .journeys _ => True
  | .situations ss => ∀ s ∈ ss, s.Settled k

theorem Delivery.returns {d : Delivery} (h : d.Settled (k + 9)) :
    Delivery.format.Returns (k + 13) d := by
  cases d with
  | journeys us =>
    exact Format.choice_returns rfl rfl (Format.list_returns fun u _ => JourneyUpdate.returns u)
  | situations ss =>
    exact Format.choice_returns rfl rfl (Format.list_returns fun s hs => Situation.returns (h s hs))

theorem ServiceDelivery.returns {d : ServiceDelivery} (h : d.delivery.Settled (k + 9)) :
    ServiceDelivery.record.format.Returns (k + 14) d :=
  Record.returns (by decide) <|
    .cons (Member.gives_required Timestamp.returns) <|
    .cons (Member.gives_optional rfl fun _ _ => Format.text_returns) <|
    .cons (Member.gives_required (Delivery.returns h)) <|
    .nil rfl

theorem Heartbeat.returns (h : Heartbeat) : Heartbeat.record.format.Returns (k + 1) h :=
  Record.returns (by decide) <|
    .cons (Member.gives_required Timestamp.returns) <|
    .cons (Member.gives_optional rfl fun _ _ => Format.text_returns) <|
    .nil rfl

theorem Termination.returns (t : Termination) : Termination.record.format.Returns (k + 1) t :=
  Record.returns (by decide) <|
    .cons (Member.gives_required Timestamp.returns) <|
    .cons (Member.gives_optional rfl fun _ _ => Format.text_returns) <|
    .cons (Member.gives_optional rfl fun _ _ => Format.text_returns) <|
    .nil rfl

namespace Envelope

open Json (Source)

/-- An envelope returns if the content of its body does, under the key of its kind. -/
theorem returns_of {β : Type} {f : Format β} {wrap : β → EnvelopeBody} {name : String} {y : β}
    {version : Version} (hwrite : writeBody (wrap y) = (name, f.toJson y)) (hname : name ≠ "version")
    (hfind : variants.find? (·.name == name) = some (.of name f wrap)) (hy : f.Returns k y) :
    format.Returns (k + 1) ⟨version, wrap y⟩ := by
  have hvalue : format.toJson ⟨version, wrap y⟩ =
      .object [("version", Version.format.toJson version), (name, f.toJson y)] := by
    show Json.object [_, writeBody (wrap y)] = _
    rw [hwrite]
  have hversion : Version.format.Returns k version := Version.returns
  refine ⟨by rw [hvalue]; exact nofun, ?_, fun hsource => ?_⟩
  · rw [hvalue]
    exact Nat.succ_le_succ (Nat.max_le.mpr ⟨hversion.depth, Nat.max_le.mpr ⟨hy.depth, Nat.zero_le k⟩⟩)
  · obtain ⟨inner, henter, hinner⟩ := hsource.enter
    have hmembers : readMembers inner none (Json.Node.ofMembers
        [("version", Version.format.toJson version), (name, f.toJson y)]) =
          .ok (some version, [(name, f.toJson y)]) := by
      simp only [Json.Node.ofMembers, readMembers, bind, Except.bind, if_true, Option.isSome,
        Bool.false_eq_true, if_false, hversion.reads hinner, if_neg hname,
        Json.Node.free_ofJson _ (hinner.mono hy.depth)]
    have hbody : readBody [(name, f.toJson y)] = .ok (wrap y) := by
      simp only [readBody, hfind, Variant.of, hy.reads Source.holds_held, Except.map]
    rw [hvalue]
    show (Source.enter _).bind _ = _
    rw [henter]
    show (readMembers inner none (Json.Node.ofMembers _)).bind _ = _
    rw [hmembers]
    show (readBody [(name, f.toJson y)]).bind _ = _
    rw [hbody]
    rfl

end Envelope

def EnvelopeBody.Settled (k : Nat) : EnvelopeBody → Prop
  | .service d => d.delivery.Settled k
  | _ => True

theorem Envelope.returns {e : Envelope} (h : e.body.Settled (k + 9)) :
    Envelope.format.Returns (k + 15) e := by
  obtain ⟨version, body⟩ := e
  cases body with
  | service d => exact returns_of rfl (by decide) rfl (ServiceDelivery.returns h)
  | heartbeat b => exact returns_of rfl (by decide) rfl (Heartbeat.returns b)
  | terminated t => exact returns_of rfl (by decide) rfl (Termination.returns t)

/-! ## Subscriptions -/

/-- A set of references is read back from the list of them. -/
theorem RefSet.ofList_toList (rs : RefSet) : RefSet.ofList rs.toList = rs :=
  RefSet.ext_mem fun _ => RefSet.mem_ofList

theorem RefSet.returns (rs : RefSet) : Subscription.refSetFormat.Returns (k + 1) rs :=
  Format.filtered_returns (Format.list_returns fun _ _ => Format.text_returns)
    (congrArg some rs.ofList_toList)

/-- The heartbeat interval of a subscription, if it has one, is one of whole seconds. -/
def Subscription.WholeSeconds (s : Subscription) : Prop :=
  ∀ i, s.heartbeat = some i → i.nano.val = 0

theorem Interval.returns {i : Interval} (h : i.nano.val = 0) :
    Subscription.intervalFormat.Returns k i := by
  refine Format.filtered_returns Format.uint64_returns (congrArg some ?_)
  obtain ⟨seconds, nano⟩ := i
  exact congrArg (Interval.mk seconds) (Fin.ext h.symm)

theorem Subscription.returns {s : Subscription} (h : s.WholeSeconds) :
    Subscription.format.Returns (k + 2) s :=
  Record.returns (by decide) <|
    .cons (Member.gives_defaulted Format.text_returns) <|
    .cons (Member.gives_defaulted Format.text_returns) <|
    .cons (Member.gives_defaulted (RefSet.returns _)) <|
    .cons (Member.gives_defaulted (RefSet.returns _)) <|
    .cons (Member.gives_defaulted (RefSet.returns _)) <|
    .cons (Member.gives_defaulted (RefSet.returns _)) <|
    .cons (Member.gives_defaulted (RefSet.returns _)) <|
    .cons (Member.gives_defaulted Format.text_returns) <|
    .cons (Member.gives_defaulted Format.bool_returns) <|
    .cons (Member.gives_defaulted Format.uint32_returns) <|
    .cons (Member.gives_optional rfl fun i hi => Interval.returns (h i hi)) <|
    .cons (Member.gives_optional rfl fun _ _ => Timestamp.returns) <|
    .cons (Member.gives_optional rfl fun _ _ => Format.text_returns) <|
    .cons (Member.gives_optional rfl fun _ _ => Format.text_returns) <|
    .nil rfl

end TransitPush
