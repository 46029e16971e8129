import TransitPush.Proofs.Routing.FirstPush
/-!
# Situations that affect complete routes

A situation that affects nothing but journeys, whose routes list all their stops in order, reaches a
subscriber between stops on two ways. One goes by direction: a route passes a from stop before a to
stop. The other does not: a registered stop of a route is one of the subscriber's, whichever side it is
on. So the subscriber back is told as well, unless no stop is a registered one.

* `Scope.OnlyCompleteRoutes.onJourney_iff`: the way by direction.
* `Scope.OnlyCompleteRoutes.isSome_trimmed?`: trimming leaves the routes that list a stop of the
  subscriber's.
* `Hub.complete_routes_told`: who is told; `Hub.complete_routes_reverse`: a subscriber back who is.
-/
namespace TransitPush

/-- The subscription names stops on both sides, and has no other criterion. -/
structure Subscription.OnlyStops (s : Subscription) : Prop where
  origins : s.fromStops.isEmpty = false
  destinations : s.toStops.isEmpty = false
  lines : s.lineRefs.isEmpty = true
  vehicles : s.vehicleRefs.isEmpty = true
  codespaces : s.codespaces.isEmpty = true

/-- Of what is matched or passed on, the scope affects only journeys, whose routes list all their
stops. -/
structure Scope.OnlyCompleteRoutes (scope : Scope) : Prop where
  networks : scope.networks = []
  stopPoints : scope.stopPoints = []
  stopPlaces : scope.stopPlaces = []
  complete : ∀ j ∈ scope.journeys, ∀ r ∈ j.routes, r.isComplete = true

theorem Subscription.OnlyStops.hasNoStops {s : Subscription} (hs : s.OnlyStops) :
    s.hasNoStops = false := by
  rw [Subscription.hasNoStops, hs.origins, Bool.false_and]

namespace Scope.OnlyCompleteRoutes

variable {scope : Scope} {s : Subscription} {t : Topology} {routes : LiveRoutes}
  {participant : Option String}

/-- By direction: one of the routes goes the subscriber's way. -/
theorem onJourney_iff (h : scope.OnlyCompleteRoutes) (hs : s.OnlyStops) :
    scope.OnJourney t routes participant s ↔
      ∃ j ∈ scope.journeys, ∃ r ∈ j.routes, t.Passes s r.stopRefs := by
  constructor
  · rintro ⟨j, hj, row, hrow, hmeets⟩
    have hpasses := hmeets.stops hs.hasNoStops
    cases hrow with
    | unrouted _ =>
      obtain ⟨ref, href, -⟩ := hpasses.exists_mem
      cases href
    | listed hr _ => exact ⟨j, hj, _, hr, hpasses⟩
    | live hr hincomplete _ =>
      rw [h.complete j hj _ hr] at hincomplete
      cases hincomplete
    | unknown hr _ _ => exact ⟨j, hj, _, hr, hpasses⟩
  · rintro ⟨j, hj, r, hr, hpasses⟩
    refine ⟨j, hj, r.stopRefs, .listed hr (h.complete j hj r hr), ?_⟩
    exact {
      some := .inl hs.hasNoStops
      stops := fun _ => hpasses
      line := fun hlines => by rw [hs.lines] at hlines; cases hlines
      vehicle := fun hvehicles => by rw [hs.vehicles] at hvehicles; cases hvehicles
      codespace := fun hcodespaces => by rw [hs.codespaces] at hcodespaces; cases hcodespaces }

/-- Lines of networks and codespaces are no ways to a subscriber with stops. -/
theorem concerns_iff {situation : Situation} (haffects : situation.affects = some scope)
    (hs : s.OnlyStops) : situation.Concerns t routes s ↔
      scope.OnStop t s ∨ scope.OnJourney t routes situation.participant s := by
  have hline : ¬ scope.OnNetworkLine situation.participant s := by
    rintro ⟨hstops, -⟩
    rw [hs.hasNoStops] at hstops
    cases hstops
  have hcodespace : ¬ s.OnCodespace situation.participant := by
    rintro ⟨hstops, -⟩
    rw [hs.hasNoStops] at hstops
    cases hstops
  simp only [Situation.Concerns, haffects, Option.some.injEq, exists_eq_left', hline, hcodespace,
    or_false]

/-- Something is left if a route lists one of the subscriber's stops. -/
theorem isSome_trimmed? {situation : Situation} (h : scope.OnlyCompleteRoutes)
    (haffects : situation.affects = some scope) (hs : s.OnlyStops) {stops : RefSet} :
    (situation.trimmed? s stops).isSome = true ↔
      ∃ j ∈ scope.journeys, ∃ r ∈ j.routes, ∃ ref ∈ r.stopRefs, ref ∈ stops := by
  have hnot : s.isFirehose = false := by simp [Subscription.isFirehose, hs.hasNoStops]
  have hplaces : ¬ scope.HasStopPlace s stops := by simp [HasStopPlace, h.stopPlaces]
  have hnetworks : ¬ scope.HasNetworkLine s := by simp [HasNetworkLine, h.networks]
  have hanyLine : ∀ j : AffectedJourney, j.MayBeOnLineOf s := by
    intro j line _ _ hlines
    rw [hs.lines] at hlines
    cases hlines
  rw [Situation.isSome_trimmed?]
  simp only [haffects, Option.some.injEq, exists_eq_left', hnot, Bool.false_eq_true, if_false,
    hplaces, hnetworks, false_or, or_false, AffectedJourney.Remains, hanyLine, true_and,
    hs.hasNoStops, forall_const]

/-- Without registered stops no stop is a way. -/
theorem not_onStop (h : scope.OnlyCompleteRoutes)
    (hforeign : ∀ j ∈ scope.journeys, ∀ r ∈ j.routes, ∀ ref ∈ r.stopRefs,
      Ref.isRegistryStop ref = false) : ¬ scope.OnStop t s := by
  rintro ⟨stop, hmentions, hregistry, -⟩
  rcases hmentions with ⟨p, hp, -⟩ | ⟨p, hp, -⟩ | ⟨j, hj, r, hr, hstop⟩
  · rw [h.stopPoints] at hp
    cases hp
  · rw [h.stopPlaces] at hp
    cases hp
  · rw [hforeign j hj r hr stop hstop] at hregistry
    cases hregistry

end Scope.OnlyCompleteRoutes

namespace Hub

variable {τ : Type} {h : Hub MemoryStore τ} {situation : Situation} {scope : Scope}
  {s : Subscription}

/-- **Told of complete routes.** Of a situation that affects nothing but complete routes, in a version
that was not sent, a subscriber between stops is told exactly if one of the routes goes the
subscriber's way, or if the subscriber is reached by a registered stop of a route, in whichever
direction, and some route lists one of the subscriber's stops. If no stop of the routes is a registered
one, it is the direction alone that counts. -/
theorem complete_routes_told (hr : h.Reached) (haffects : situation.affects = some scope)
    (hscope : scope.OnlyCompleteRoutes) (hstored : SubscriptionStore.get? h.store s.id = some s)
    (hs : s.OnlyStops) (hm : ¬ (Event.situation situation).Malformed)
    (ha : (Event.situation situation).Accepted h.accepted) (hunsent : h.Unsent s situation)
    (now : Timestamp) :
    (∀ row, h.topology.affected s row = true ↔ h.topology.Passes s row) ∧
    ∃ pushes h', h.route (.situation situation) now = .ok (pushes, h') ∧
      ((∃ o ∈ pushes, o.subscription = s) ↔
        (∃ j ∈ scope.journeys, ∃ r ∈ j.routes, h.topology.affected s r.stopRefs = true) ∨
        (scope.OnStop h.topology s ∧ ∃ j ∈ scope.journeys, ∃ r ∈ j.routes, ∃ ref ∈ r.stopRefs,
          ref ∈ h.topology.subscribedStops s)) ∧
      ((∀ j ∈ scope.journeys, ∀ r ∈ j.routes, ∀ ref ∈ r.stopRefs,
          Ref.isRegistryStop ref = false) →
        ((∃ o ∈ pushes, o.subscription = s) ↔
          ∃ j ∈ scope.journeys, ∃ r ∈ j.routes, h.topology.affected s r.stopRefs = true)) := by
  obtain ⟨pushes, h', hroute, htold⟩ := told_iff hr.named hm ha hunsent now
  have hboth : (∃ o ∈ pushes, o.subscription = s) ↔
      (∃ j ∈ scope.journeys, ∃ r ∈ j.routes, h.topology.affected s r.stopRefs = true) ∨
      (scope.OnStop h.topology s ∧ ∃ j ∈ scope.journeys, ∃ r ∈ j.routes, ∃ ref ∈ r.stopRefs,
        ref ∈ h.topology.subscribedStops s) := by
    rw [htold, mem_selectSituation hr.named, Scope.OnlyCompleteRoutes.concerns_iff haffects hs,
      hscope.onJourney_iff hs, hscope.isSome_trimmed? haffects hs]
    simp only [hstored, true_and, Topology.affected_iff_passes]
    constructor
    · rintro ⟨hstop | hpasses, hlisted⟩
      · exact .inr ⟨hstop, hlisted⟩
      · exact .inl hpasses
    · rintro (⟨j, hj, r, hr, hpasses⟩ | ⟨hstop, hlisted⟩)
      · obtain ⟨ref, href, hmem⟩ := hpasses.exists_mem
        exact ⟨.inr ⟨j, hj, r, hr, hpasses⟩, j, hj, r, hr, ref, href, hmem⟩
      · exact ⟨.inl hstop, hlisted⟩
  refine ⟨fun row => Topology.affected_iff_passes, pushes, h', hroute, hboth, fun hforeign => ?_⟩
  rw [hboth]
  exact or_iff_left fun hstop => hscope.not_onStop hforeign hstop.1

/-- Subscribers there and back, between stops that are not registered and between registered ones. -/
def thereAndBack : List RegistryOp :=
  let pushing := Subscription.pushing "" "http://localhost"
  [.put (pushing.withStops "A" "B"), .put (pushing.withStops "B" "A"),
    .put (pushing.withStops "NSR:Quay:1" "NSR:Quay:2"),
    .put (pushing.withStops "NSR:Quay:2" "NSR:Quay:1")]

def fourTravellers : Hub MemoryStore PlayedTransport where
  courier := Courier.idle.manageAll thereAndBack
  topology := .empty
  routes := ∅
  dedup := .empty DedupCache.defaultTtl ⟨toString, 0⟩
  accepted := []
  planner := .ofInterval Planner.defaultCheckInterval

theorem reached_fourTravellers : fourTravellers.Reached :=
  ⟨Courier.idle, thereAndBack, rfl, Supply.tally_proper, Supply.tally_plain, rfl⟩

def affectingRoute (stops : List String) : Situation :=
  affecting ⟨none, [], [.through stops true]⟩

/-- Between stops that are not registered, who travels there is told, and who travels back is not. -/
theorem complete_routes_told_unregistered :
    let there : Subscription :=
      { (Subscription.pushing "" "http://localhost").withStops "A" "B" with id := "i" }
    let back : Subscription :=
      { (Subscription.pushing "" "http://localhost").withStops "B" "A" with id := "ii" }
    fourTravellers.Reached ∧ ∃ pushes h',
      fourTravellers.route (.situation (affectingRoute ["A", "B"])) .epoch = .ok (pushes, h') ∧
      (∃ o ∈ pushes, o.subscription = there) ∧ ¬ ∃ o ∈ pushes, o.subscription = back := by
  intro there back
  have hscope : Scope.OnlyCompleteRoutes
      { Scope.empty with journeys := [⟨none, [], [.through ["A", "B"] true]⟩] } :=
    ⟨rfl, rfl, rfl, by decide⟩
  have hm : ¬ (Event.situation (affectingRoute ["A", "B"])).Malformed :=
    fun h => absurd (h "1" rfl) (by decide)
  have hthere : SubscriptionStore.get? fourTravellers.store there.id = some there := by decide
  have hback : SubscriptionStore.get? fourTravellers.store back.id = some back := by decide
  obtain ⟨-, pushes, h', hroute, htold, -⟩ := complete_routes_told reached_fourTravellers rfl hscope
    hthere ⟨rfl, rfl, rfl, rfl, rfl⟩ hm (.inl rfl) (fun _ => rfl) .epoch
  obtain ⟨-, pushes', h'', hroute', -, hdirection⟩ := complete_routes_told reached_fourTravellers rfl
    hscope hback ⟨rfl, rfl, rfl, rfl, rfl⟩ hm (.inl rfl) (fun _ => rfl) .epoch
  have hforeign := hdirection (by decide)
  rw [hroute] at hroute'
  cases hroute'
  exact ⟨reached_fourTravellers, pushes, h', hroute, htold.mpr (.inl (by decide)),
    hforeign.not.mpr (by decide)⟩

/-- Between registered stops, who travels back is told as well. -/
theorem complete_routes_reverse :
    let back : Subscription :=
      { (Subscription.pushing "" "http://localhost").withStops "NSR:Quay:2" "NSR:Quay:1" with
        id := "iiii" }
    let stops := ["NSR:Quay:1", "NSR:Quay:2"]
    fourTravellers.Reached ∧ SubscriptionStore.get? fourTravellers.store "iiii" = some back ∧
    fourTravellers.topology.affected back stops = false ∧
    (fourTravellers.route (.situation (affectingRoute stops)) .epoch).map
      (fun routed => routed.1.map fun o => o.subscription.id) = .ok ["iii", "iiii"] := by
  refine ⟨reached_fourTravellers, ?_, ?_, ?_⟩ <;> decide

end Hub
end TransitPush
