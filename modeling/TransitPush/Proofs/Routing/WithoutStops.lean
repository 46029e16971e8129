import TransitPush.Proofs.Routing.KeptStops
/-!
# Subscribers without stops

Who names no stops is told of a situation for its lines, its vehicles and its codespaces. Three ways lead
to such a subscriber: an affected journey, the line of an affected network, and the codespace alone. Only
the first one looks at all that the subscription names. The other two pass over its vehicles.

* `AffectedJourney.Suits`: all that a subscription without stops names holds of a journey.
* `Situation.concerns_withoutStops`: the three ways, in which rows of stops no longer occur.
* `selectSituation_withoutStops`: who is selected, and which of the criteria hold then;
  `selectSituation_other_vehicle`: that its vehicles need not be affected.
* `Scope.mem_journeys_excerpt`, `Scope.line_of_mem_networks`: what is kept for who names lines.
* `Hub.line_subscribers_told`: what a line subscriber is told, and when.
-/
namespace TransitPush

def Scope.HasJourneyOnLine (scope : Scope) (s : Subscription) : Prop :=
  ∃ j ∈ scope.journeys, ∃ line ∈ s.lineRefs, j.lineRef = some line

def Scope.HasVehicle (scope : Scope) (s : Subscription) : Prop :=
  ∃ j ∈ scope.journeys, ∃ vehicle ∈ s.vehicleRefs, vehicle ∈ j.journeyRefs

/-- The subscription names lines, vehicles or codespaces, and of each kind that it names one is the
journey's. -/
structure AffectedJourney.Suits (j : AffectedJourney) (participant : Option String)
    (s : Subscription) : Prop where
  some : s.lineRefs.isEmpty = false ∨ s.vehicleRefs.isEmpty = false ∨ s.codespaces.isEmpty = false
  line : s.lineRefs.isEmpty = false → ∃ line ∈ s.lineRefs, j.lineRef = .some line
  vehicle : s.vehicleRefs.isEmpty = false → ∃ vehicle ∈ s.vehicleRefs, vehicle ∈ j.journeyRefs
  codespace : s.codespaces.isEmpty = false → ∃ c ∈ s.codespaces, participant = .some c

/-- A subscription without stops is reached by a journey that suits it, by the line of a network or by
the codespace. -/
def Scope.Reaches (scope : Scope) (participant : Option String) (s : Subscription) : Prop :=
  (∃ j ∈ scope.journeys, j.Suits participant s) ∨ scope.OnNetworkLine participant s ∨
    s.OnCodespace participant

variable {s : Subscription} {stops : RefSet} {scope : Scope} {participant : Option String}
  {situation : Situation}

/-! ## The three ways -/

theorem Scope.not_onStop {t : Topology} (hstops : s.hasNoStops = true) : ¬ scope.OnStop t s := by
  intro hon
  obtain ⟨stop, -, -, hfound⟩ := hon
  rw [Subscription.hasNoStops_of_found hfound] at hstops
  cases hstops

namespace AffectedJourney

theorem exists_isRow (routes : LiveRoutes) (j : AffectedJourney) : ∃ row, j.IsRow routes row := by
  let m : Matcher Unit := ⟨(), .empty, routes⟩
  have hrow : ∃ row, row ∈ m.rows j := by
    unfold Matcher.rows
    split
    · exact ⟨[], List.mem_singleton_self []⟩
    · rename_i hroutes
      obtain ⟨r, hr⟩ := List.exists_mem_of_ne_nil _ fun hnil => hroutes (List.isEmpty_iff.mpr hnil)
      exact ⟨_, List.mem_map_of_mem hr⟩
  obtain ⟨row, hrow⟩ := hrow
  exact ⟨row, Matcher.mem_rows.mp hrow⟩

/-- Without stops, no row of stops matters. -/
theorem meets_withoutStops (hstops : s.hasNoStops = true) {j : AffectedJourney} {t : Topology}
    {row : List String} :
    (JourneyView.mk j.lineRef j.journeyRefs participant row).Meets t s ↔ j.Suits participant s := by
  constructor
  · intro hmeets
    obtain ⟨hsome, -, hline, hvehicle, hcodespace⟩ := hmeets
    refine ⟨?_, fun h => ?_, fun h => ?_, fun h => ?_⟩
    · rwa [hstops, or_iff_right (by decide)] at hsome
    · obtain ⟨line, href, hmem⟩ := hline h
      exact ⟨line, hmem, href⟩
    · obtain ⟨vehicle, href, hmem⟩ := hvehicle h
      exact ⟨vehicle, hmem, href⟩
    · obtain ⟨c, hc, hmem⟩ := hcodespace h
      exact ⟨c, hmem, hc⟩
  · intro hsuits
    obtain ⟨hsome, hline, hvehicle, hcodespace⟩ := hsuits
    refine ⟨.inr hsome, fun h => ?_, fun h => ?_, fun h => ?_, fun h => ?_⟩
    · rw [hstops] at h
      cases h
    · obtain ⟨line, hmem, href⟩ := hline h
      exact ⟨line, href, hmem⟩
    · obtain ⟨vehicle, hmem, href⟩ := hvehicle h
      exact ⟨vehicle, href, hmem⟩
    · obtain ⟨c, hmem, hc⟩ := hcodespace h
      exact ⟨c, hc, hmem⟩

end AffectedJourney

theorem Situation.concerns_withoutStops (hstops : s.hasNoStops = true) {t : Topology}
    {routes : LiveRoutes} : situation.Concerns t routes s ↔
      ∃ scope, situation.affects = some scope ∧ scope.Reaches situation.participant s := by
  have hjourneys : ∀ scope : Scope, scope.OnJourney t routes situation.participant s ↔
      ∃ j ∈ scope.journeys, j.Suits situation.participant s := by
    intro scope
    simp only [Scope.OnJourney, AffectedJourney.meets_withoutStops hstops]
    refine exists_congr fun j => and_congr_right fun _ => ?_
    constructor
    · intro hrow
      obtain ⟨_, -, hsuits⟩ := hrow
      exact hsuits
    · intro hsuits
      obtain ⟨row, hrow⟩ := j.exists_isRow routes
      exact ⟨row, hrow, hsuits⟩
  simp only [Concerns, Scope.not_onStop hstops, false_or, hjourneys, Scope.Reaches]

/-! ## What each way looks at -/

namespace Scope.Reaches

theorem line (h : scope.Reaches participant s) (hlines : s.lineRefs.isEmpty = false) :
    scope.HasJourneyOnLine s ∨ scope.HasNetworkLine s := by
  obtain ⟨j, hj, hsuits⟩ | hnetwork | hcodespace := h
  · exact .inl ⟨j, hj, hsuits.line hlines⟩
  · exact .inr hnetwork.2.2
  · rw [hcodespace.2.1] at hlines
    cases hlines

theorem codespace (h : scope.Reaches participant s) (hcodespaces : s.codespaces.isEmpty = false) :
    ∃ c ∈ s.codespaces, participant = some c := by
  have hnot : ¬ s.codespaces.isEmpty = true := by simp [hcodespaces]
  obtain ⟨j, -, hsuits⟩ | hnetwork | hcodespace := h
  · exact hsuits.codespace hcodespaces
  · obtain ⟨c, hc, hmem⟩ := hnetwork.2.1.resolve_left hnot
    exact ⟨c, hmem, hc⟩
  · obtain ⟨c, hc, hmem⟩ := hcodespace.2.2
    exact ⟨c, hmem, hc⟩

theorem vehicle (h : scope.Reaches participant s) (hvehicles : s.vehicleRefs.isEmpty = false) :
    scope.HasVehicle s ∨ scope.OnNetworkLine participant s ∨ s.OnCodespace participant := by
  refine h.imp_left fun hjourney => ?_
  obtain ⟨j, hj, hsuits⟩ := hjourney
  exact ⟨j, hj, hsuits.vehicle hvehicles⟩

end Scope.Reaches

/-- **Criteria of who names no stops.** From every store that a run leads to, with any topology and any
live routes, a subscription without stops is selected for a situation exactly if it is stored and one of
three ways reaches it: some affected journey has what it names of each kind, or it names the line of an
affected network and is not restricted to other codespaces, or it names no lines but the codespace. Its
lines and codespaces are always respected then. Its vehicles are, unless a network or the codespace
reaches it. -/
theorem selectSituation_withoutStops (ops : List StoreOp)
    (hfresh : StoreOp.Fresh MemoryStore.empty ops) (t : Topology) (routes : LiveRoutes)
    (situation : Situation) {s : Subscription} (hstops : s.hasNoStops = true) :
    let store := StoreOp.run MemoryStore.empty ops
    let selected := Matcher.selectSituation ⟨store, t, routes⟩ situation
    (s ∈ selected ↔ SubscriptionStore.get? store s.id = some s ∧
      ∃ scope, situation.affects = some scope ∧ scope.Reaches situation.participant s) ∧
    (s ∈ selected → ∃ scope, situation.affects = some scope ∧
      (s.lineRefs.isEmpty = false → scope.HasJourneyOnLine s ∨ scope.HasNetworkLine s) ∧
      (s.codespaces.isEmpty = false → ∃ c ∈ s.codespaces, situation.participant = some c) ∧
      (s.vehicleRefs.isEmpty = false → scope.HasVehicle s ∨
        scope.OnNetworkLine situation.participant s ∨ s.OnCodespace situation.participant)) := by
  intro store selected
  have hstore : store.Consistent := MemoryStore.Consistent.empty.run ops hfresh
  have hselected : s ∈ selected ↔ SubscriptionStore.get? store s.id = some s ∧
      situation.Concerns t routes s :=
    Matcher.mem_selectSituation (m := ⟨store, t, routes⟩) hstore.answersFrom hstore.own
  rw [Situation.concerns_withoutStops hstops] at hselected
  refine ⟨hselected, fun hs => ?_⟩
  obtain ⟨-, scope, haffects, hreaches⟩ := hselected.mp hs
  exact ⟨scope, haffects, hreaches.line, hreaches.codespace, hreaches.vehicle⟩

/-- Subscribers to a vehicle on a line, to one of a codespace, and to another on another line. -/
def vehicleSubscribers : List StoreOp :=
  let pushing := Subscription.pushing "" "http://localhost"
  [.add "1" ((pushing.withLine "NSB:Line:1").withVehicle "NSB:Journey:1"),
    .add "2" ((pushing.withCodespace "NSB").withVehicle "NSB:Journey:1"),
    .add "3" ((pushing.withLine "NSB:Line:2").withVehicle "NSB:Journey:2")]

/-- A line is closed, and with it a journey on another line. -/
def closedLine : Situation :=
  { Situation.numbered "1" 1 with
    participant := some "NSB"
    affects := some { Scope.empty with
      networks := [⟨none, [⟨some "NSB:Line:1"⟩]⟩]
      journeys := [⟨some "NSB:Line:2", ["NSB:Journey:2"], [.through ["A", "B"] true]⟩] } }

theorem selectSituation_withoutStops_closedLine :
    let store := StoreOp.run MemoryStore.empty vehicleSubscribers
    let selected := Matcher.selectSituation ⟨store, .empty, ∅⟩ closedLine
    StoreOp.Fresh MemoryStore.empty vehicleSubscribers ∧
    selected.map Subscription.id = ["1", "2", "3"] ∧
    ∀ s ∈ selected, s.hasNoStops = true ∧ ∃ scope, closedLine.affects = some scope ∧
      (s.lineRefs.isEmpty = false → scope.HasJourneyOnLine s ∨ scope.HasNetworkLine s) := by
  intro store selected
  have hfresh : StoreOp.Fresh MemoryStore.empty vehicleSubscribers := by decide
  have hnoStops : ∀ s ∈ selected, s.hasNoStops = true := by decide
  refine ⟨hfresh, by decide, fun s hs => ⟨hnoStops s hs, ?_⟩⟩
  obtain ⟨-, hcriteria⟩ :=
    selectSituation_withoutStops vehicleSubscribers hfresh .empty ∅ closedLine (hnoStops s hs)
  obtain ⟨scope, haffects, hline, -⟩ := hcriteria hs
  exact ⟨scope, haffects, hline⟩

/-- Two of them are selected although no journey with their vehicle is affected, one by the affected
network and one by the codespace. -/
theorem selectSituation_other_vehicle :
    let store := StoreOp.run MemoryStore.empty vehicleSubscribers
    let selected := Matcher.selectSituation ⟨store, .empty, ∅⟩ closedLine
    StoreOp.Fresh MemoryStore.empty vehicleSubscribers ∧
    ∀ id ∈ ["1", "2"], ∃ s ∈ selected, s.id = id ∧ s.normalized = s ∧ s.check false = .ok () ∧
      s.hasNoStops = true ∧ s.vehicleRefs.isEmpty = false ∧
      ∀ scope, closedLine.affects = some scope → ¬ scope.HasVehicle s := by
  intro store selected
  have hother : ∀ s : Subscription, ¬ "NSB:Journey:2" ∈ s.vehicleRefs →
      ∀ scope, closedLine.affects = some scope → ¬ scope.HasVehicle s := by
    intro s hs scope haffects hvehicle
    cases haffects
    obtain ⟨j, hj, vehicle, hnamed, hmem⟩ := hvehicle
    obtain rfl := List.mem_singleton.mp hj
    obtain rfl := List.mem_singleton.mp hmem
    exact hs hnamed
  refine ⟨by decide, fun id hid => ?_⟩
  have hfound : ∃ s ∈ selected, s.id = id ∧ s.normalized = s ∧ s.check false = .ok () ∧
      s.hasNoStops = true ∧ s.vehicleRefs.isEmpty = false ∧ ¬ "NSB:Journey:2" ∈ s.vehicleRefs := by
    revert id
    decide
  obtain ⟨s, hs, hsid, hnormal, hcheck, hstops, hvehicles, hnot⟩ := hfound
  exact ⟨s, hs, hsid, hnormal, hcheck, hstops, hvehicles, hother s hnot⟩

/-! ## Line subscribers -/

theorem AffectedJourney.mayBeOnLineOf_iff (hlines : s.lineRefs.isEmpty = false)
    {j : AffectedJourney} : j.MayBeOnLineOf s ↔ j.lineRef = none ∨
      ∃ line, j.lineRef = some line ∧ (Text.trim line = "" ∨ Text.trim line ∈ s.lineRefs) := by
  unfold MayBeOnLineOf
  cases j.lineRef with
  | none => simp
  | some line => simp [hlines, or_iff_not_imp_left]

namespace Scope

/-- Of the journeys, those with a route that may be on a line of the subscriber are kept as they are. -/
theorem mem_journeys_excerpt (hstops : s.hasNoStops = true) (hlines : s.lineRefs.isEmpty = false)
    {j : AffectedJourney} : j ∈ (scope.excerpt s stops).journeys ↔
      j ∈ scope.journeys ∧ j.routes ≠ [] ∧ j.MayBeOnLineOf s := by
  have hwhole : ∀ j : AffectedJourney, j.trimmedRoutes s stops = j := fun j => if_pos hstops
  rw [excerpt_eq (.inr hlines), mem_journeys_trimmed]
  simp only [hwhole]
  constructor
  · intro hkept
    obtain ⟨k, hk, hline, rfl, r, hr⟩ := hkept
    exact ⟨hk, List.ne_nil_of_mem hr, hline⟩
  · intro hkept
    obtain ⟨hj, hroutes, hline⟩ := hkept
    exact ⟨j, hj, hline, rfl, List.exists_mem_of_ne_nil _ hroutes⟩

theorem line_of_mem_networks (hlines : s.lineRefs.isEmpty = false) {n : Network}
    (hn : n ∈ (scope.excerpt s stops).networks) {l : NetworkLine} (hl : l ∈ n.lines) :
    ∃ line ∈ s.lineRefs, l.ref = some line := by
  rw [excerpt_eq (.inr hlines), mem_networks_trimmed] at hn
  obtain ⟨whole, -, rfl, -⟩ := hn
  obtain ⟨-, line, href, hline⟩ := Network.mem_lines_trimmed.mp hl
  exact ⟨line, hline, href⟩

end Scope

namespace Hub

/-- **Line subscribers.** In every store that the registry makes, for every situation and every
subscription that names lines and no stops: the lines of networks in its copy are lines that it names,
and the journeys in it are those of the situation with a route that have no line, a blank one, or one
that it names, up to blanks around it. A push is made to it, with that copy, only if a journey of the
situation is on a line that it names or a line of an affected network is one. -/
theorem line_subscribers_told {τ : Type} {h : Hub MemoryStore τ} (hr : h.Reached)
    (hstops : s.hasNoStops = true) (hlines : s.lineRefs.isEmpty = false) (situation : Situation) :
    (∀ stops copy, situation.trimmed? s stops = some copy →
      ∃ scope kept, situation.affects = some scope ∧ copy.affects = some kept ∧
        (∀ n ∈ kept.networks, ∀ l ∈ n.lines, ∃ line ∈ s.lineRefs, l.ref = some line) ∧
        ∀ j, j ∈ kept.journeys ↔ j ∈ scope.journeys ∧ j.routes ≠ [] ∧
          (j.lineRef = none ∨ ∃ line, j.lineRef = some line ∧
            (Text.trim line = "" ∨ Text.trim line ∈ s.lineRefs))) ∧
    ∀ now pushes h', h.route (.situation situation) now = .ok (pushes, h') →
      ∀ o ∈ pushes, o.subscription = s →
        (∃ copy, situation.trimmed? s (h.topology.subscribedStops s) = some copy ∧
          o.event = .situation copy) ∧
        ∃ scope, situation.affects = some scope ∧
          (scope.HasJourneyOnLine s ∨ scope.HasNetworkLine s) := by
  constructor
  · intro stops copy hcopy
    obtain ⟨scope, haffects, -, rfl⟩ := Situation.trimmed?_eq_some.mp hcopy
    refine ⟨scope, _, haffects, rfl, fun n hn l hl => Scope.line_of_mem_networks hlines hn hl,
      fun j => ?_⟩
    rw [Scope.mem_journeys_excerpt hstops hlines, AffectedJourney.mayBeOnLineOf_iff hlines]
  · intro now pushes h' hroute o ho hos
    obtain ⟨hselected, hcopy⟩ := copy_of_route hroute ho
    rw [hos] at hselected hcopy
    obtain ⟨copy, htrimmed, hevent⟩ := Option.map_eq_some_iff.mp hcopy
    have hconcerns := ((mem_selectSituation hr.named).mp hselected).2
    obtain ⟨scope, haffects, hreaches⟩ := (Situation.concerns_withoutStops hstops).mp hconcerns
    exact ⟨⟨copy, htrimmed, hevent.symm⟩, scope, haffects, hreaches.line hlines⟩

/-- Lines of a network, and for each of some line references a journey with it. -/
def onLines (lines : List String) (refs : List (Option String)) : Situation :=
  { Situation.numbered "1" 1 with
    affects := some { Scope.empty with
      networks := [⟨none, lines.map fun line => ⟨some line⟩⟩]
      journeys := refs.map fun ref => ⟨ref, [], [.through ["A"] true]⟩ } }

/-- The second of the two subscribers, who names a line. -/
def lineSubscriber : Subscription :=
  { (Subscription.pushing "" "http://b").withLine "1" with id := "ii" }

theorem line_subscribers_told_onLines :
    let situation := onLines ["1", "2"] [some "1", some "2", none]
    let copy := onLines ["1"] [some "1", none]
    oneLiveRoute.Reached ∧ lineSubscriber.hasNoStops = true ∧
    lineSubscriber.lineRefs.isEmpty = false ∧
    (∃ scope kept, situation.affects = some scope ∧ copy.affects = some kept ∧
      ∀ n ∈ kept.networks, ∀ l ∈ n.lines, ∃ line ∈ lineSubscriber.lineRefs, l.ref = some line) ∧
    ∃ pushes h', oneLiveRoute.route (.situation situation) .epoch = .ok (pushes, h') ∧
      pushes = [⟨lineSubscriber, .situation copy⟩] ∧
      ∃ scope, situation.affects = some scope ∧
        (scope.HasJourneyOnLine lineSubscriber ∨ scope.HasNetworkLine lineSubscriber) := by
  intro situation copy
  have hlines : lineSubscriber.lineRefs.isEmpty = false := by decide
  obtain ⟨hcopies, hpushes⟩ := line_subscribers_told reached_oneLiveRoute rfl hlines situation
  have hcopy : situation.trimmed? lineSubscriber ∅ = some copy := by decide
  obtain ⟨scope, kept, haffects, hkept, hnetworks, -⟩ := hcopies ∅ copy hcopy
  have hpushed : (oneLiveRoute.route (.situation situation) .epoch).map Prod.fst =
      .ok [⟨lineSubscriber, .situation copy⟩] := by decide
  cases hroute : oneLiveRoute.route (.situation situation) .epoch with
  | error err =>
    rw [hroute] at hpushed
    cases hpushed
  | ok answer =>
    rw [hroute] at hpushed
    have hall : answer.1 = [⟨lineSubscriber, .situation copy⟩] := Except.ok.inj hpushed
    have hmem : ⟨lineSubscriber, .situation copy⟩ ∈ answer.1 := by
      rw [hall]
      exact List.mem_singleton_self _
    obtain ⟨-, hreached⟩ := hpushes .epoch answer.1 answer.2 hroute _ hmem rfl
    exact ⟨reached_oneLiveRoute, rfl, hlines, ⟨scope, kept, haffects, hkept, hnetworks⟩, answer.1,
      answer.2, rfl, hall, hreached⟩

/-- Beside the journey on its line, a line subscriber is sent a journey without line, one with a blank
line reference, and one with a blank before it, none of which is a line that it names. -/
theorem line_subscribers_told_unlined :
    oneLiveRoute.Reached ∧ lineSubscriber.normalized = lineSubscriber ∧
    lineSubscriber.check false = .ok () ∧ lineSubscriber.hasNoStops = true ∧
    lineSubscriber.lineRefs.isEmpty = false ∧
    ∀ ref ∈ [none, some " ", some " 1"],
      let situation := onLines ["1"] [some "1", ref]
      (oneLiveRoute.route (.situation situation) .epoch).map Prod.fst =
        .ok [⟨lineSubscriber, .situation situation⟩] ∧
      situation.trimmed? lineSubscriber ∅ = some situation ∧
      ∃ scope, situation.affects = some scope ∧
        ∃ j ∈ scope.journeys, ¬ ∃ line ∈ lineSubscriber.lineRefs, j.lineRef = some line := by
  refine ⟨reached_oneLiveRoute, by decide, by decide, rfl, by decide, ?_⟩
  intro ref href situation
  have hpushed : (oneLiveRoute.route (.situation situation) .epoch).map Prod.fst =
      .ok [⟨lineSubscriber, .situation situation⟩] := by
    revert ref
    decide
  have hcopy : situation.trimmed? lineSubscriber ∅ = some situation := by
    revert ref
    decide
  refine ⟨hpushed, hcopy, _, rfl, _, .tail _ (.head _), fun hline => ?_⟩
  obtain ⟨line, hmem, rfl⟩ := hline
  obtain rfl : line = "1" := List.mem_singleton.mp hmem
  exact absurd href (by decide)

end Hub
end TransitPush
