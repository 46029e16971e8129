import TransitPush.Proofs.Routing.Excerpts
import TransitPush.Proofs.Routing.FirstPush
import TransitPush.Proofs.Routing.Stations
/-!
# Stops that are kept

Who is found for a stop is found upwards, on the stop itself or on its station. What is left of a
situation is decided downwards, by the stops of the subscription, each station with its quays. The way
up is part of the way down, so the stop for which a subscriber is found stays in its copy, whatever is
left out around it.

* `Matcher.mem_subscribedStops_of_mem_forStop`: the stop is among the stops of who is found for it.
* `Scope.place_kept`, `Scope.point_kept`: stops of the subscription are in the excerpt for it.
* `Situation.copy_of_mem`: what is in the excerpt is in a copy.
* `Hub.stops_kept`: stop places and stops of routes that are kept.
-/
namespace TransitPush

/-! ## Up and down -/

/-- Whatever has quays is named as a station. -/
def Topology.NamesStations (t : Topology) : Prop :=
  ∀ stop station, stop ∈ t.quaysOf station → Ref.isStation station = true

theorem Subscription.hasNoStops_eq_false {s : Subscription} {stop : String} (h : stop ∈ s.stops) :
    s.hasNoStops = false := by
  rw [hasNoStops, Bool.and_eq_false_iff, RefSet.isEmpty_eq_false, RefSet.isEmpty_eq_false]
  rcases List.mem_append.mp h with hfrom | hto
  · exact .inl ⟨stop, hfrom⟩
  · exact .inr ⟨stop, hto⟩

/-- Who is found for a stop, by itself or by its station, names stops. -/
theorem Subscription.hasNoStops_of_found {s : Subscription} {t : Topology} {stop : String}
    (h : stop ∈ s.stops ∨ Ref.isQuay stop = true ∧
      ∃ station, t.stationOf? stop = some station ∧ station ∈ s.stops) : s.hasNoStops = false := by
  obtain hown | ⟨-, station, -, hstation⟩ := h
  · exact hasNoStops_eq_false hown
  · exact hasNoStops_eq_false hstation

namespace Matcher

variable {σ : Type} [SubscriptionStore σ] {m : Matcher σ} {subs : Table Subscription} {stop : String}
  {s : Subscription}

theorem hasNoStops_of_mem_forStop (h : AnswersFrom m.store subs) (hs : s ∈ m.forStop stop) :
    s.hasNoStops = false :=
  Subscription.hasNoStops_of_found ((mem_forStop h).mp hs).2

/-- The station by which a subscription is found lists the stop, so the stop comes with it. -/
theorem mem_subscribedStops_of_mem_forStop (h : AnswersFrom m.store subs)
    (ht : m.topology.Linked) (hnames : m.topology.NamesStations) (hs : s ∈ m.forStop stop) :
    stop ∈ m.topology.subscribedStops s := by
  obtain ⟨-, hown | ⟨-, station, hlast, hstation⟩⟩ := (mem_forStop h).mp hs
  · exact Topology.mem_expand.mpr (.inl hown)
  · have hquay := ht.up stop station hlast
    exact Topology.mem_expand.mpr (.inr ⟨station, hstation, hnames stop station hquay, hquay⟩)

end Matcher

/-! ## What an excerpt keeps -/

variable {s : Subscription} {stops : RefSet} {scope : Scope} {situation : Situation}

namespace Scope

/-- Who names stops or lines gets no section whole. -/
theorem excerpt_eq (h : s.hasNoStops = false ∨ s.lineRefs.isEmpty = false) :
    scope.excerpt s stops = scope.profile.trimmed s stops := by
  rw [excerpt, if_neg]
  obtain hstops | hlines := h
  · simp [Subscription.isFirehose, hstops]
  · simp [Subscription.isFirehose, hlines]

theorem place_kept (hstops : s.hasNoStops = false) {p : StopPlace} {ref : String}
    (hp : p ∈ scope.stopPlaces) (href : p.ref = some ref) (hmem : ref ∈ stops) :
    p ∈ (scope.excerpt s stops).stopPlaces := by
  rw [excerpt_eq (.inl hstops)]
  exact mem_stopPlaces_trimmed.mpr ⟨hstops, hp, ref, href, hmem⟩

/-- A stop of a route that is among the stops keeps its route and its journey. -/
theorem point_kept (hstops : s.hasNoStops = false) {j : AffectedJourney} {r : Route} {p : RoutePoint}
    {ref : String} (hj : j ∈ scope.journeys) (hline : j.MayBeOnLineOf s) (hr : r ∈ j.routes)
    (hp : p ∈ r.points) (href : p.stopRef? = some ref) (hmem : ref ∈ stops) :
    ∃ k ∈ (scope.excerpt s stops).journeys, k.PartBy Route.CutOf j ∧
      ∃ q ∈ k.routes, q.CutOf r ∧ p ∈ q.points := by
  have hlists : ∃ ref ∈ r.stopRefs, ref ∈ stops := ⟨ref, List.mem_filterMap.mpr ⟨p, hp, href⟩, hmem⟩
  have hroute : r.trimmed stops ∈ (j.trimmedRoutes s stops).routes :=
    (AffectedJourney.mem_routes_trimmedRoutes hstops).mpr ⟨r, hr, rfl, hlists⟩
  have hpoint : p ∈ (r.trimmed stops).points :=
    Route.mem_points_trimmed.mpr ⟨hp, .inl ⟨ref, href, hmem⟩⟩
  refine ⟨j.trimmedRoutes s stops, ?_, AffectedJourney.trimmedRoutes_partBy s stops j,
    r.trimmed stops, hroute, Route.trimmed_cutOf stops r, hpoint⟩
  rw [excerpt_eq (.inl hstops)]
  exact mem_journeys_trimmed.mpr ⟨j, hj, hline, rfl, _, hroute⟩

end Scope

/-- What is in the excerpt is in a copy, which there is then. -/
theorem Situation.copy_of_mem (haffects : situation.affects = some scope)
    (hleft : (∃ p, p ∈ (scope.excerpt s stops).stopPlaces) ∨
      ∃ j, j ∈ (scope.excerpt s stops).journeys) :
    ∃ copy, situation.trimmed? s stops = some copy ∧
      copy.affects = some (scope.excerpt s stops) := by
  have hprofile : (scope.excerpt s stops).hasProfile = true :=
    Scope.hasProfile_iff.mpr (hleft.imp_right .inl)
  exact ⟨_, trimmed?_eq_some.mpr ⟨scope, haffects, hprofile, rfl⟩, rfl⟩

namespace Hub

/-- **Who is found for a stop keeps it.** With a topology whose stations are named as such, in every
store that the registry makes: whatever a situation affects, a subscription that is found for a stop
gets a copy with each affected stop place that is the stop, and with each point that is the stop on a
route of a journey which has no line, or one that the subscription names, or any line if it names
none. -/
theorem stops_kept {τ : Type} {h : Hub MemoryStore τ} (hr : h.Reached) (ht : h.topology.Made)
    (hnames : h.topology.NamesStations) {stop : String} (hs : s ∈ h.matcher.forStop stop)
    (haffects : situation.affects = some scope) :
    (∀ p ∈ scope.stopPlaces, p.ref = some stop →
      ∃ copy kept, situation.trimmed? s (h.topology.subscribedStops s) = some copy ∧
        copy.affects = some kept ∧ p ∈ kept.stopPlaces) ∧
    ∀ j ∈ scope.journeys,
      s.lineRefs.isEmpty = true ∨ j.lineRef = none ∨ (∃ line ∈ s.lineRefs, j.lineRef = some line) →
      ∀ r ∈ j.routes, ∀ p ∈ r.points, p.stopRef? = some stop →
        ∃ copy kept, situation.trimmed? s (h.topology.subscribedStops s) = some copy ∧
          copy.affects = some kept ∧ ∃ k ∈ kept.journeys, k.PartBy Route.CutOf j ∧
            ∃ q ∈ k.routes, q.CutOf r ∧ p ∈ q.points := by
  have hanswers : Matcher.AnswersFrom h.matcher.store h.store.subscriptions :=
    hr.named.consistent.answersFrom
  have hstops := Matcher.hasNoStops_of_mem_forStop hanswers hs
  have hmem : stop ∈ h.topology.subscribedStops s :=
    Matcher.mem_subscribedStops_of_mem_forStop hanswers ht.linked hnames hs
  have hwell : s.WellFormed := hr.lawful.wellFormed s.id s ((Matcher.mem_forStop hanswers).mp hs).1
  constructor
  · intro p hp href
    have hkept := Scope.place_kept hstops hp href hmem
    obtain ⟨copy, hcopy, hparts⟩ := Situation.copy_of_mem haffects (.inl ⟨p, hkept⟩)
    exact ⟨copy, _, hcopy, hparts, hkept⟩
  · intro j hj hline r hr p hp href
    obtain ⟨k, hk, hpart, hroute⟩ := Scope.point_kept hstops hj
      (AffectedJourney.mayBeOnLineOf_of_named hwell hline) hr hp href hmem
    obtain ⟨copy, hcopy, hparts⟩ := Situation.copy_of_mem haffects (.inr ⟨k, hk⟩)
    exact ⟨copy, _, hcopy, hparts, k, hk, hpart, hroute⟩

/-- A hub with a quay of two stations, and a subscriber to a line on the last of them. -/
def quayOfTwo : Hub MemoryStore PlayedTransport :=
  { oneLiveRoute with
    courier := Courier.idle.manageAll
      [.put (((Subscription.pushing "" "http://a").withStops "NSR:StopPlace:2" "NSR:StopPlace:9").withLine
        "1")]
    topology := sharedQuay }

theorem reached_quayOfTwo : quayOfTwo.Reached :=
  ⟨Courier.idle, _, rfl, Supply.tally_proper, Supply.tally_plain, rfl⟩

/-- The quay is closed, and a journey on the line goes by it, between stops of others. -/
def closedAndPassed : Scope :=
  { Scope.empty with
    stopPlaces := [⟨some "NSR:StopPlace:1", none⟩, ⟨some "NSR:Quay:1", none⟩]
    journeys := [⟨some "1", [], [.through ["NSR:Quay:2"] true, .through ["X", "NSR:Quay:1"] false]⟩] }

theorem stops_kept_quayOfTwo :
    let situation := { Situation.numbered "1" 1 with affects := some closedAndPassed }
    quayOfTwo.Reached ∧ quayOfTwo.topology.Made ∧ quayOfTwo.topology.NamesStations ∧
    ∃ s ∈ quayOfTwo.matcher.forStop "NSR:Quay:1", s.id = "i" ∧
      ∃ copy kept, situation.trimmed? s (quayOfTwo.topology.subscribedStops s) = some copy ∧
        copy.affects = some kept ∧ ⟨some "NSR:Quay:1", none⟩ ∈ kept.stopPlaces ∧
        ∃ k ∈ kept.journeys, ∃ q ∈ k.routes, RoutePoint.stop ⟨some "NSR:Quay:1", none⟩ ∈ q.points := by
  intro situation
  let s : Subscription :=
    { ((Subscription.pushing "" "http://a").withStops "NSR:StopPlace:2" "NSR:StopPlace:9").withLine
        "1" with id := "i" }
  have hs : s ∈ quayOfTwo.matcher.forStop "NSR:Quay:1" := by decide
  have hnames : quayOfTwo.topology.NamesStations := fun stop station hquay =>
    (sharedQuay_wellNamed stop station hquay).1
  have haffects : situation.affects = some closedAndPassed := rfl
  obtain ⟨hplaces, hpoints⟩ := stops_kept reached_quayOfTwo sharedQuay_made hnames hs haffects
  obtain ⟨copy, kept, hcopy, hparts, hplace⟩ :=
    hplaces ⟨some "NSR:Quay:1", none⟩ (.tail _ (.head _)) rfl
  obtain ⟨copy', kept', hcopy', hparts', k, hk, -, q, hq, -, hpoint⟩ :=
    hpoints _ (.head _) (.inr (.inr ⟨"1", by decide, rfl⟩)) _ (.tail _ (.head _)) _ (.tail _ (.head _)) rfl
  obtain rfl := Option.some.inj (hcopy.symm.trans hcopy')
  obtain rfl := Option.some.inj (hparts.symm.trans hparts')
  exact ⟨reached_quayOfTwo, sharedQuay_made, hnames, s, hs, rfl, copy, kept, hcopy, hparts, hplace, k,
    hk, q, hq, hpoint⟩

end Hub
end TransitPush
