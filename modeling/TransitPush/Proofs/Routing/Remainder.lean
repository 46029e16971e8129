import TransitPush.Routing.Dedup
import TransitPush.Routing.Trimming
/-!
# What trimming leaves

A subscriber gets a copy of a situation as long as one of three sections has something for it: a line
that it names, a stop place among its stops, or a journey with a route. Who wants all of a codespace
gets a copy of whatever has one of these sections at all.

* `Scope.HasNetworkLine`, `Scope.HasStopPlace`, `AffectedJourney.Remains`: when something is left of a
  section, in terms of the situation as it was received.
* `Scope.mem_stopPlaces_trimmed`, `mem_journeys_trimmed`, `mem_networks_trimmed`: what is left of it.
* `Situation.isSome_trimmed?`: when a copy is left.
* `Situation.fingerprint_trimmed?`: the copy has the fingerprint of the situation.
-/
namespace TransitPush

/-! ## The sections -/

/-- A line of an affected network is one that the subscription names. -/
def Scope.HasNetworkLine (scope : Scope) (s : Subscription) : Prop :=
  ∃ n ∈ scope.networks, ∃ l ∈ n.lines, ∃ line, l.ref = some line ∧ line ∈ s.lineRefs

/-- The subscription names stops, and an affected stop place is among them. -/
def Scope.HasStopPlace (scope : Scope) (s : Subscription) (stops : RefSet) : Prop :=
  s.hasNoStops = false ∧ ∃ p ∈ scope.stopPlaces, ∃ ref, p.ref = some ref ∧ ref ∈ stops

/-- If the subscription names lines, the journey has none or is on one of them. -/
def AffectedJourney.MayBeOnLineOf (j : AffectedJourney) (s : Subscription) : Prop :=
  ∀ line, j.lineRef = some line → Text.trim line ≠ "" → s.lineRefs.isEmpty = false →
    Text.trim line ∈ s.lineRefs

/-- The journey may be on a line of the subscription, and has a route; if the subscription names stops,
one that lists a stop among them. -/
def AffectedJourney.Remains (j : AffectedJourney) (s : Subscription) (stops : RefSet) : Prop :=
  j.MayBeOnLineOf s ∧
    ∃ r ∈ j.routes, s.hasNoStops = false → ∃ ref ∈ r.stopRefs, ref ∈ stops

/-! ## Journeys -/

variable {s : Subscription} {stops : RefSet}

theorem Route.mem_points_trimmed {r : Route} {p : RoutePoint} :
    p ∈ (r.trimmed stops).points ↔ p ∈ r.points ∧
      ((∃ ref, p.stopRef? = some ref ∧ ref ∈ stops) ∨ p.stopRef? = none ∧ p.isStop = false) := by
  unfold Route.trimmed Route.points
  cases r.stops with
  | none => simp
  | some rs =>
    simp only [Option.map_some, List.mem_filter]
    cases p.stopRef? <;> simp

/-- Stops without a reference are dropped and the shapes of links do not count. -/
theorem Route.stopCount_trimmed {r : Route} :
    0 < (r.trimmed stops).stopCount ↔ ∃ ref ∈ r.stopRefs, ref ∈ stops := by
  simp only [stopCount, List.countP_pos_iff, mem_points_trimmed, stopRefs, List.mem_filterMap]
  constructor
  · rintro ⟨p, ⟨hp, hkept⟩, hstop⟩
    rcases hkept with ⟨ref, href, hmem⟩ | ⟨-, hlink⟩
    · exact ⟨ref, ⟨p, hp, href⟩, hmem⟩
    · rw [hstop] at hlink
      cases hlink
  · rintro ⟨ref, ⟨p, hp, href⟩, hmem⟩
    refine ⟨p, ⟨hp, .inl ⟨ref, href, hmem⟩⟩, ?_⟩
    cases p with
    | stop point => rfl
    | link positions => cases href

namespace AffectedJourney

theorem onLineOf_iff {j : AffectedJourney} : j.onLineOf s = true ↔ j.MayBeOnLineOf s := by
  unfold onLineOf MayBeOnLineOf
  cases j.lineRef with
  | none => simp
  | some line =>
    simp only [Option.map_some, Bool.or_eq_true, decide_eq_true_eq, Option.some.injEq,
      forall_eq', or_assoc]
    by_cases hblank : Text.trim line = ""
    · simp [hblank]
    · cases s.lineRefs.isEmpty <;> simp [hblank]

/-- The routes that are left for who names stops list one of them. -/
theorem mem_routes_trimmedRoutes (hstops : s.hasNoStops = false) {j : AffectedJourney} {q : Route} :
    q ∈ (j.trimmedRoutes s stops).routes ↔
      ∃ r ∈ j.routes, q = r.trimmed stops ∧ ∃ ref ∈ r.stopRefs, ref ∈ stops := by
  rw [trimmedRoutes, if_neg (by simp [hstops])]
  simp only [List.mem_filter, List.mem_map, decide_eq_true_eq]
  constructor
  · rintro ⟨⟨r, hr, rfl⟩, hcount⟩
    exact ⟨r, hr, rfl, Route.stopCount_trimmed.mp hcount⟩
  · rintro ⟨r, hr, rfl, hlists⟩
    exact ⟨⟨r, hr, rfl⟩, Route.stopCount_trimmed.mpr hlists⟩

theorem exists_route_trimmedRoutes {j : AffectedJourney} :
    (∃ q, q ∈ (j.trimmedRoutes s stops).routes) ↔
      ∃ r ∈ j.routes, s.hasNoStops = false → ∃ ref ∈ r.stopRefs, ref ∈ stops := by
  cases hstops : s.hasNoStops with
  | true =>
    rw [trimmedRoutes, if_pos hstops]
    simp
  | false =>
    simp only [mem_routes_trimmedRoutes hstops, forall_const]
    constructor
    · rintro ⟨_, r, hr, rfl, hlists⟩
      exact ⟨r, hr, hlists⟩
    · rintro ⟨r, hr, hlists⟩
      exact ⟨_, r, hr, rfl, hlists⟩

end AffectedJourney

/-! ## The scope -/

theorem Network.mem_lines_trimmed {n : Network} {l : NetworkLine} :
    l ∈ (n.trimmed s).lines ↔ l ∈ n.lines ∧ ∃ line, l.ref = some line ∧ line ∈ s.lineRefs := by
  rw [trimmed, List.mem_filter]
  simp [Option.any_eq_true]

namespace Scope

variable {scope : Scope}

theorem hasProfile_iff : scope.hasProfile = true ↔
    (∃ p, p ∈ scope.stopPlaces) ∨ (∃ j, j ∈ scope.journeys) ∨ ∃ n, n ∈ scope.networks := by
  simp only [hasProfile, Bool.or_eq_true, Bool.not_eq_true', List.isEmpty_eq_false_iff_exists_mem,
    or_assoc]

theorem mem_stopPlaces_trimmed {p : StopPlace} : p ∈ (scope.trimmed s stops).stopPlaces ↔
    s.hasNoStops = false ∧ p ∈ scope.stopPlaces ∧ ∃ ref, p.ref = some ref ∧ ref ∈ stops := by
  rw [trimmed]
  cases s.hasNoStops <;> simp [Option.any_eq_true]

theorem mem_journeys_trimmed {k : AffectedJourney} : k ∈ (scope.trimmed s stops).journeys ↔
    ∃ j ∈ scope.journeys, j.MayBeOnLineOf s ∧ k = j.trimmedRoutes s stops ∧ ∃ q, q ∈ k.routes := by
  simp only [trimmed, List.mem_filter, List.mem_map, AffectedJourney.onLineOf_iff, Bool.not_eq_true',
    List.isEmpty_eq_false_iff_exists_mem]
  constructor
  · rintro ⟨⟨j, ⟨hj, hline⟩, rfl⟩, hroutes⟩
    exact ⟨j, hj, hline, rfl, hroutes⟩
  · rintro ⟨j, hj, hline, rfl, hroutes⟩
    exact ⟨⟨j, ⟨hj, hline⟩, rfl⟩, hroutes⟩

theorem mem_networks_trimmed {k : Network} : k ∈ (scope.trimmed s stops).networks ↔
    ∃ n ∈ scope.networks, k = n.trimmed s ∧ ∃ l, l ∈ k.lines := by
  simp only [trimmed, List.mem_filter, List.mem_map, Bool.not_eq_true',
    List.isEmpty_eq_false_iff_exists_mem]
  constructor
  · rintro ⟨⟨n, hn, rfl⟩, hlines⟩
    exact ⟨n, hn, rfl, hlines⟩
  · rintro ⟨n, hn, rfl, hlines⟩
    exact ⟨⟨n, hn, rfl⟩, hlines⟩

theorem hasProfile_trimmed : (scope.trimmed s stops).hasProfile = true ↔
    scope.HasStopPlace s stops ∨ (∃ j ∈ scope.journeys, j.Remains s stops) ∨
      scope.HasNetworkLine s := by
  have hplaces : (∃ p, p ∈ (scope.trimmed s stops).stopPlaces) ↔ scope.HasStopPlace s stops := by
    simp only [mem_stopPlaces_trimmed, exists_and_left]
    exact Iff.rfl
  have hjourneys : (∃ j, j ∈ (scope.trimmed s stops).journeys) ↔
      ∃ j ∈ scope.journeys, j.Remains s stops := by
    simp only [mem_journeys_trimmed]
    constructor
    · rintro ⟨_, j, hj, hline, rfl, hroutes⟩
      exact ⟨j, hj, hline, AffectedJourney.exists_route_trimmedRoutes.mp hroutes⟩
    · rintro ⟨j, hj, hline, hroutes⟩
      exact ⟨_, j, hj, hline, rfl, AffectedJourney.exists_route_trimmedRoutes.mpr hroutes⟩
  have hnetworks : (∃ n, n ∈ (scope.trimmed s stops).networks) ↔ scope.HasNetworkLine s := by
    simp only [mem_networks_trimmed]
    constructor
    · rintro ⟨_, n, hn, rfl, l, hl⟩
      obtain ⟨hl, line, href, hline⟩ := Network.mem_lines_trimmed.mp hl
      exact ⟨n, hn, l, hl, line, href, hline⟩
    · rintro ⟨n, hn, l, hl, line, href, hline⟩
      exact ⟨_, n, hn, rfl, l, Network.mem_lines_trimmed.mpr ⟨hl, line, href, hline⟩⟩
  rw [hasProfile_iff, hplaces, hjourneys, hnetworks]

end Scope

/-! ## The copy -/

namespace Situation

variable {situation : Situation}

/-- A copy is left if the situation says what it affects and something of that concerns the
subscription. -/
theorem isSome_trimmed? : (situation.trimmed? s stops).isSome = true ↔
    ∃ scope, situation.affects = some scope ∧
      if s.isFirehose then scope.hasProfile = true
      else scope.HasStopPlace s stops ∨ (∃ j ∈ scope.journeys, j.Remains s stops) ∨
        scope.HasNetworkLine s := by
  unfold trimmed?
  cases situation.affects with
  | none => simp
  | some scope =>
    simp only [Option.isSome_ite, Option.some.injEq, exists_eq_left']
    cases s.isFirehose with
    | true => exact Iff.rfl
    | false => exact Scope.hasProfile_trimmed

/-- A copy has the fingerprint of the situation, which is made of its number and version. -/
theorem fingerprint_trimmed? {copy : Situation} (h : situation.trimmed? s stops = some copy)
    (fresh : String) (id : SubscriptionId) :
    fingerprint fresh id (.situation copy) = fingerprint fresh id (.situation situation) := by
  unfold trimmed? at h
  cases haffects : situation.affects with
  | none =>
    rw [haffects] at h
    cases h
  | some scope =>
    rw [haffects] at h
    obtain ⟨-, hcopy⟩ := Option.ite_none_right_eq_some.mp h
    cases hcopy
    rfl

end Situation
end TransitPush
