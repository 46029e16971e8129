import TransitPush.Proofs.Routing.Selection
/-!
# One law for journeys

Journeys come in two forms: as part of a situation, with any number of routes, and as the update of one
journey. Both are matched by one law. A list of journeys concerns whom one of them concerns, a journey
whom it concerns by one of its routes, and an update whom the journey along its calls concerns.

* `AffectedJourney.singles`: a journey once for each of its routes.
* `Matcher.concerned_singles`: a list of journeys is as good as its single ones.
* `JourneyUpdate.asAffected`, `Matcher.selectJourney_eq_concerned`: an update as an affected journey, in
  any store.
* `Matcher.mem_concerned_single`: whom a journey with one route concerns.
* `concerned_law`: all of it, for every store that a run leads to.
-/
namespace TransitPush

/-- A journey once for each of its routes; one that lists none counts once. -/
def AffectedJourney.singles (j : AffectedJourney) : List AffectedJourney :=
  if j.routes.isEmpty then [j] else j.routes.map fun r => { j with routes := [r] }

/-- The journey of an update: along its calls, which are all stops of it if the update says so. -/
def JourneyUpdate.asAffected (u : JourneyUpdate) : AffectedJourney :=
  ⟨u.lineRef, u.journeyRefs, [.through u.stopSequence u.isComplete]⟩

theorem Route.stopRefs_through (stops : List String) (affectedOnly : Bool) :
    (Route.through stops affectedOnly).stopRefs = stops := by
  show (stops.map fun ref => RoutePoint.stop ⟨some ref, none⟩).filterMap RoutePoint.stopRef? = stops
  rw [List.filterMap_map]
  exact List.filterMap_some

namespace Matcher

/-! ## Routes one by one -/

section
variable {σ : Type} {m : Matcher σ} {j k : AffectedJourney}

/-- A single journey has one row of stops. -/
theorem rows_single (hk : k ∈ j.singles) : ∃ row, m.rows k = [row] := by
  unfold AffectedJourney.singles at hk
  split at hk
  · rename_i hroutes
    obtain rfl := List.mem_singleton.mp hk
    exact ⟨[], if_pos hroutes⟩
  · obtain ⟨r, -, rfl⟩ := List.mem_map.mp hk
    exact ⟨_, rfl⟩

theorem isRow_single (hk : k ∈ j.singles) :
    ∃ row, ∀ other, k.IsRow m.routes other ↔ other = row := by
  obtain ⟨row, hrow⟩ := @rows_single _ m _ _ hk
  refine ⟨row, fun other => ?_⟩
  rw [← mem_rows, hrow, List.mem_singleton]

theorem views_singles (codespace : Option String) (j : AffectedJourney) :
    m.views codespace j = j.singles.flatMap (m.views codespace) := by
  unfold AffectedJourney.singles
  split
  · rw [List.flatMap_singleton]
  · rename_i hroutes
    rw [views, rows, if_neg hroutes, List.map_map, List.map_eq_flatMap, List.flatMap_map]
    rfl

end

section
variable {σ : Type} [SubscriptionStore σ] {m : Matcher σ} {subs : Table Subscription}

/-- A list of journeys is matched as its single journeys are. -/
theorem concerned_singles (journeys : List AffectedJourney) (codespace : Option String) :
    m.concerned journeys codespace = m.concerned (journeys.flatMap AffectedJourney.singles) codespace := by
  unfold concerned
  rw [List.flatMap_assoc, List.flatMap_congr fun j _ => views_singles codespace j]

/-- An update is matched as its journey is, whatever the store. -/
theorem selectJourney_eq_concerned (u : JourneyUpdate) :
    m.selectJourney u = m.concerned [u.asAffected] u.source := by
  have hviews : [u.asAffected].flatMap (m.views u.source) = [m.viewOf u] := by
    have hlisted := Route.stopRefs_through u.stopSequence u.isComplete
    rw [List.flatMap_singleton]
    show [JourneyView.mk u.lineRef u.journeyRefs u.source
      (if u.isComplete then (Route.through u.stopSequence u.isComplete).stopRefs
        else (m.liveRoute? u.journeyRefs).getD
          (Route.through u.stopSequence u.isComplete).stopRefs)] = [m.viewOf u]
    rw [hlisted]
    rfl
  unfold concerned
  rw [hviews]
  rfl

theorem concerned_ascending (h : AnswersFrom m.store subs) (hown : OwnIds subs)
    (journeys : List AffectedJourney) (codespace : Option String) :
    ((m.concerned journeys codespace).map Subscription.id).Pairwise (· < ·) := by
  obtain ⟨found, hfound, hvalues⟩ := holds_concerned h hown journeys codespace
  rw [hvalues]
  exact hfound.ascending hown

/-- A list of journeys concerns whom one of them concerns. -/
theorem mem_concerned_union (h : AnswersFrom m.store subs) (hown : OwnIds subs)
    {journeys : List AffectedJourney} {codespace : Option String} {s : Subscription} :
    s ∈ m.concerned journeys codespace ↔ ∃ j ∈ journeys, s ∈ m.concerned [j] codespace := by
  simp only [mem_concerned h hown, List.mem_singleton, exists_eq_left]
  constructor
  · rintro ⟨hs, j, hj, hrow⟩
    exact ⟨j, hj, hs, hrow⟩
  · rintro ⟨j, hj, hs, hrow⟩
    exact ⟨hs, j, hj, hrow⟩

/-- A single journey concerns those stored whose criteria it meets by its one row. -/
theorem mem_concerned_single (h : AnswersFrom m.store subs) (hown : OwnIds subs)
    {k : AffectedJourney} {row : List String} (hrow : ∀ other, k.IsRow m.routes other ↔ other = row)
    {codespace : Option String} {s : Subscription} :
    s ∈ m.concerned [k] codespace ↔ subs.get? s.id = some s ∧
      (JourneyView.mk k.lineRef k.journeyRefs codespace row).Meets m.topology s := by
  simp only [mem_concerned h hown, List.mem_singleton, exists_eq_left, hrow]

end
end Matcher

/-- **One law for journeys.** From every store that a run leads to, with any topology and any live
routes: a list of journeys concerns, by ascending identifier and so each once, whom one of them taken
with one of its routes concerns. Whom the update of a journey concerns are those whom the journey along
its calls concerns. And a journey with one route, or none, is matched by one row of stops: it concerns
those stored that have a criterion and whose criteria are all met. -/
theorem concerned_law (ops : List StoreOp) (hfresh : StoreOp.Fresh MemoryStore.empty ops)
    (t : Topology) (routes : LiveRoutes) :
    let store := StoreOp.run MemoryStore.empty ops
    let m : Matcher MemoryStore := ⟨store, t, routes⟩
    (∀ journeys codespace,
      ((m.concerned journeys codespace).map Subscription.id).Pairwise (· < ·) ∧
      ∀ s, s ∈ m.concerned journeys codespace ↔
        ∃ j ∈ journeys, ∃ k ∈ j.singles, s ∈ m.concerned [k] codespace) ∧
    (∀ u, m.selectJourney u = m.concerned [u.asAffected] u.source) ∧
    ∀ (j : AffectedJourney), ∀ k ∈ j.singles, ∃ row, (∀ other, k.IsRow routes other ↔ other = row) ∧
      ∀ codespace s, s ∈ m.concerned [k] codespace ↔ SubscriptionStore.get? store s.id = some s ∧
        (JourneyView.mk k.lineRef k.journeyRefs codespace row).Meets t s := by
  intro store m
  have hstore : store.Consistent := MemoryStore.Consistent.empty.run ops hfresh
  have h : Matcher.AnswersFrom m.store store.subscriptions := hstore.answersFrom
  refine ⟨fun journeys codespace => ⟨?_, fun s => ?_⟩, fun u => ?_, fun j k hk => ?_⟩
  · exact Matcher.concerned_ascending h hstore.own journeys codespace
  · rw [Matcher.concerned_singles, Matcher.mem_concerned_union h hstore.own]
    simp only [List.mem_flatMap]
    constructor
    · rintro ⟨k, ⟨j, hj, hk⟩, hs⟩
      exact ⟨j, hj, k, hk, hs⟩
    · rintro ⟨j, hj, k, hk, hs⟩
      exact ⟨k, ⟨j, hj, hk⟩, hs⟩
  · exact Matcher.selectJourney_eq_concerned u
  · obtain ⟨row, hrow⟩ := Matcher.isRow_single (m := m) hk
    exact ⟨row, hrow, fun codespace s => Matcher.mem_concerned_single h hstore.own hrow⟩

/-- A journey with two routes, of which one is known to go on, and one without routes. -/
def twoTrips : List AffectedJourney :=
  [⟨none, ["j"], [.through ["NSR:Quay:9"] true, .through ["NSR:Quay:11"] false]⟩,
    ⟨some "NSB:Line:1", [], []⟩]

theorem concerned_law_twoTrips :
    let store := StoreOp.run MemoryStore.empty fourSubscribers
    let routes := (∅ : LiveRoutes).put "j" ["NSR:Quay:11", "NSR:StopPlace:2"] .epoch
    let m : Matcher MemoryStore :=
      ⟨store, Topology.empty.withStation "NSR:StopPlace:1" ["NSR:Quay:11"], routes⟩
    StoreOp.Fresh MemoryStore.empty fourSubscribers ∧
    (m.concerned twoTrips (some "NSB")).map Subscription.id = ["1", "2", "3"] ∧
    (∀ s ∈ m.concerned twoTrips (some "NSB"),
      ∃ j ∈ twoTrips, ∃ k ∈ j.singles, s ∈ m.concerned [k] (some "NSB")) ∧
    (m.selectJourney (.dated "NSB:Line:1" "j")).map Subscription.id = ["1", "2"] ∧
    m.selectJourney (.dated "NSB:Line:1" "j") =
      m.concerned [(JourneyUpdate.dated "NSB:Line:1" "j").asAffected] none := by
  intro store routes m
  have hfresh : StoreOp.Fresh MemoryStore.empty fourSubscribers := by decide
  obtain ⟨hunion, hupdate, -⟩ := concerned_law fourSubscribers hfresh
    (Topology.empty.withStation "NSR:StopPlace:1" ["NSR:Quay:11"]) routes
  exact ⟨hfresh, by decide, fun s hs => ((hunion twoTrips (some "NSB")).2 s).mp hs, by decide,
    hupdate (.dated "NSB:Line:1" "j")⟩

end TransitPush
