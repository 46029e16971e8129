import TransitPush.Proofs.Routing.Direction
import TransitPush.Proofs.Routing.Gathering
import TransitPush.Proofs.Store.Refinement
/-!
# Which subscriptions an event concerns

A situation concerns a subscription in four ways: by a stop, by an affected journey, by the line of an
affected network, or by its codespace alone. Two of them go through the indexes of the store, one
through the topology, and all of them feed one table. What comes out is exactly the stored
subscriptions that some way reaches.

* `Situation.Concerns`: the four ways, in terms of the situation, the topology and the live routes.
* `JourneyView.concerns_iff`: the test of a journey holds exactly if the subscription has a criterion
  and each that it has is met.
* `Matcher.mem_rows`: the rows of stops by which an affected journey is matched.
* `Matcher.holds_selectSituation`: the table that is gathered, for any store that answers from the
  stored subscriptions, whatever their order.
* `selectSituation_exact`: selection from every store that a run leads to.
-/
namespace TransitPush

/-! ## What it means to be concerned -/

/-- The scope mentions a stop: as a stop point, as a stop place or on a route of a journey. -/
def Scope.Mentions (scope : Scope) (stop : String) : Prop :=
  (∃ p ∈ scope.stopPoints, p.ref = some stop) ∨ (∃ p ∈ scope.stopPlaces, p.ref = some stop) ∨
    ∃ j ∈ scope.journeys, ∃ r ∈ j.routes, stop ∈ r.stopRefs

/-- A registered stop that the scope mentions is a stop of the subscription, or a quay of a station
that is one. -/
def Scope.OnStop (scope : Scope) (t : Topology) (s : Subscription) : Prop :=
  ∃ stop, scope.Mentions stop ∧ Ref.isRegistryStop stop = true ∧
    (stop ∈ s.stops ∨
      Ref.isQuay stop = true ∧ ∃ station, t.stationOf? stop = some station ∧ station ∈ s.stops)

/-- The live route of the first of a journey's references that has one. -/
def LiveRoutes.FirstLive (routes : LiveRoutes) (refs stops : List String) : Prop :=
  ∃ before ref after, refs = before ++ ref :: after ∧
    (∀ r ∈ before, routes.stops? r = none) ∧ routes.stops? ref = some stops

/-- The rows of stops of an affected journey: for a route that lists all its stops these; for any
other the live route, or the stops that it lists if there is none. A journey without routes has the
empty row. -/
inductive AffectedJourney.IsRow (routes : LiveRoutes) (j : AffectedJourney) : List String → Prop
  | unrouted (h : j.routes = []) : IsRow routes j []
  | listed {r : Route} (hr : r ∈ j.routes) (h : r.isComplete = true) : IsRow routes j r.stopRefs
  | live {r : Route} {stops : List String} (hr : r ∈ j.routes) (h : r.isComplete = false)
      (hlive : routes.FirstLive j.journeyRefs stops) : IsRow routes j stops
  | unknown {r : Route} (hr : r ∈ j.routes) (h : r.isComplete = false)
      (hnone : ∀ ref ∈ j.journeyRefs, routes.stops? ref = none) : IsRow routes j r.stopRefs

/-- The subscription has a criterion, and each one that it has is met by what is known of a
journey. -/
structure JourneyView.Meets (v : JourneyView) (t : Topology) (s : Subscription) : Prop where
  some : s.hasNoStops = false ∨ s.lineRefs.isEmpty = false ∨ s.vehicleRefs.isEmpty = false ∨
    s.codespaces.isEmpty = false
  stops : s.hasNoStops = false → t.Passes s v.stops
  line : s.lineRefs.isEmpty = false → ∃ l, v.lineRef = .some l ∧ l ∈ s.lineRefs
  vehicle : s.vehicleRefs.isEmpty = false → ∃ r ∈ v.journeyRefs, r ∈ s.vehicleRefs
  codespace : s.codespaces.isEmpty = false → ∃ c, v.codespace = .some c ∧ c ∈ s.codespaces

/-- Some affected journey meets the criteria by one of its rows. -/
def Scope.OnJourney (scope : Scope) (t : Topology) (routes : LiveRoutes)
    (participant : Option String) (s : Subscription) : Prop :=
  ∃ j ∈ scope.journeys, ∃ row, j.IsRow routes row ∧
    (JourneyView.mk j.lineRef j.journeyRefs participant row).Meets t s

/-- The subscription names no stops, is not restricted to other codespaces, and names the line of an
affected network. -/
def Scope.OnNetworkLine (scope : Scope) (participant : Option String) (s : Subscription) : Prop :=
  s.hasNoStops = true ∧
    (s.codespaces.isEmpty = true ∨ ∃ c, participant = some c ∧ c ∈ s.codespaces) ∧
    ∃ n ∈ scope.networks, ∃ l ∈ n.lines, ∃ line, l.ref = some line ∧ line ∈ s.lineRefs

/-- The subscription names neither stops nor lines, but the codespace. -/
def Subscription.OnCodespace (s : Subscription) (participant : Option String) : Prop :=
  s.hasNoStops = true ∧ s.lineRefs.isEmpty = true ∧ ∃ c, participant = some c ∧ c ∈ s.codespaces

/-- The situation says what it affects, and concerns the subscription in one of four ways. -/
def Situation.Concerns (situation : Situation) (t : Topology) (routes : LiveRoutes)
    (s : Subscription) : Prop :=
  ∃ scope, situation.affects = some scope ∧
    (scope.OnStop t s ∨ scope.OnJourney t routes situation.participant s ∨
      scope.OnNetworkLine situation.participant s ∨ s.OnCodespace situation.participant)

/-! ## Criteria -/

theorem Subscription.acceptsCodespace_iff {s : Subscription} {codespace : Option String} :
    s.acceptsCodespace codespace = true ↔
      s.codespaces.isEmpty = true ∨ ∃ c, codespace = some c ∧ c ∈ s.codespaces := by
  simp [Subscription.acceptsCodespace, Option.any_eq_true]

theorem JourneyView.concerns_iff {v : JourneyView} {t : Topology} {s : Subscription} :
    v.concerns t s = true ↔ v.Meets t s := by
  have hclause : ∀ x b : Bool, (!(!x) || b) = true ↔ (x = false → b = true) := by decide
  have hline : (v.lineRef.any fun l => l ∈ s.lineRefs) = true ↔
      ∃ l, v.lineRef = some l ∧ l ∈ s.lineRefs := by simp [Option.any_eq_true]
  have hvehicle : (v.journeyRefs.any fun r => r ∈ s.vehicleRefs) = true ↔
      ∃ r ∈ v.journeyRefs, r ∈ s.vehicleRefs := by simp
  have hcodespace : s.codespaces.isEmpty = false → (s.acceptsCodespace v.codespace = true ↔
      ∃ c, v.codespace = some c ∧ c ∈ s.codespaces) := fun h => by
    simp [Subscription.acceptsCodespace_iff, h]
  unfold concerns
  simp only [Bool.and_eq_true, hclause, Bool.or_eq_true, Bool.not_eq_true', or_assoc,
    Topology.affected_iff_passes, hline, hvehicle]
  constructor
  · intro hall
    obtain ⟨⟨⟨⟨hsome, hs⟩, hl⟩, hv⟩, hc⟩ := hall
    exact ⟨hsome, hs, hl, hv, fun h => (hcodespace h).mp (hc h)⟩
  · intro hmeets
    obtain ⟨hsome, hs, hl, hv, hc⟩ := hmeets
    exact ⟨⟨⟨⟨hsome, hs⟩, hl⟩, hv⟩, fun h => (hcodespace h).mpr (hc h)⟩

/-! ## What a scope mentions -/

namespace Scope

theorem mem_registryStops {scope : Scope} {stop : String} :
    stop ∈ scope.registryStops ↔ scope.Mentions stop ∧ Ref.isRegistryStop stop = true := by
  simp only [registryStops, RefSet.mem_ofList, List.mem_filter, List.mem_append, List.mem_filterMap,
    List.mem_flatMap, Mentions, or_assoc]
  refine and_congr_left fun _ => or_congr_right (or_congr_right ?_)
  constructor
  · intro hmem
    obtain ⟨r, ⟨j, hj, hr⟩, hstop⟩ := hmem
    exact ⟨j, hj, r, hr, hstop⟩
  · intro hmentions
    obtain ⟨j, hj, r, hr, hstop⟩ := hmentions
    exact ⟨r, ⟨j, hj, hr⟩, hstop⟩

theorem mem_networkLines {scope : Scope} {line : String} :
    line ∈ scope.networkLines ↔ ∃ n ∈ scope.networks, ∃ l ∈ n.lines, l.ref = some line := by
  simp only [networkLines, RefSet.mem_ofList, List.mem_filterMap, List.mem_flatMap]
  constructor
  · intro hmem
    obtain ⟨l, ⟨n, hn, hl⟩, href⟩ := hmem
    exact ⟨n, hn, l, hl, href⟩
  · intro hlines
    obtain ⟨n, hn, l, hl, href⟩ := hlines
    exact ⟨l, ⟨n, hn, hl⟩, href⟩

end Scope

/-! ## Rows of stops -/

namespace Matcher

section
variable {σ : Type} {m : Matcher σ}

theorem liveRoute?_eq_some {refs stops : List String} :
    m.liveRoute? refs = some stops ↔ m.routes.FirstLive refs stops := by
  rw [liveRoute?, List.findSome?_eq_some_iff]
  constructor
  · intro hfound
    obtain ⟨before, ref, after, hrefs, hlive, hnone⟩ := hfound
    exact ⟨before, ref, after, hrefs, hnone, hlive⟩
  · intro hfirst
    obtain ⟨before, ref, after, hrefs, hnone, hlive⟩ := hfirst
    exact ⟨before, ref, after, hrefs, hlive, hnone⟩

theorem liveRoute?_eq_none {refs : List String} :
    m.liveRoute? refs = none ↔ ∀ ref ∈ refs, m.routes.stops? ref = none :=
  List.findSome?_eq_none_iff

theorem mem_rows {j : AffectedJourney} {row : List String} :
    row ∈ m.rows j ↔ j.IsRow m.routes row := by
  unfold rows
  split
  · rename_i hroutes
    have hnil : j.routes = [] := List.isEmpty_iff.mp hroutes
    rw [List.mem_singleton]
    constructor
    · rintro rfl
      exact .unrouted hnil
    · intro hrow
      rcases hrow with _ | ⟨hr, -⟩ | ⟨hr, -, -⟩ | ⟨hr, -, -⟩
      · rfl
      all_goals
        rw [hnil] at hr
        cases hr
  · rename_i hroutes
    rw [List.mem_map]
    constructor
    · intro hmem
      obtain ⟨r, hr, rfl⟩ := hmem
      split
      · rename_i hcomplete
        exact .listed hr hcomplete
      · rename_i hcomplete
        have hfalse : r.isComplete = false := by simpa using hcomplete
        cases hlive : m.liveRoute? j.journeyRefs with
        | none => exact .unknown hr hfalse (liveRoute?_eq_none.mp hlive)
        | some stops => exact .live hr hfalse (liveRoute?_eq_some.mp hlive)
    · intro hrow
      rcases hrow with hnil | ⟨hr, hcomplete⟩ | ⟨hr, hcomplete, hlive⟩ | ⟨hr, hcomplete, hnone⟩
      · exact absurd (List.isEmpty_iff.mpr hnil) hroutes
      · exact ⟨_, hr, if_pos hcomplete⟩
      · refine ⟨_, hr, ?_⟩
        rw [if_neg (by simp [hcomplete]), liveRoute?_eq_some.mpr hlive, Option.getD_some]
      · refine ⟨_, hr, ?_⟩
        rw [if_neg (by simp [hcomplete]), liveRoute?_eq_none.mpr hnone, Option.getD_none]

theorem mem_views {j : AffectedJourney} {codespace : Option String} {v : JourneyView} :
    v ∈ m.views codespace j ↔
      ∃ row, j.IsRow m.routes row ∧ v = ⟨j.lineRef, j.journeyRefs, codespace, row⟩ := by
  simp only [views, List.mem_map, mem_rows, eq_comm]

end

/-! ## The four ways -/

/-- A store answers from subscriptions: what a query gives are those that have the key, in whatever
order. -/
structure AnswersFrom {σ : Type} [SubscriptionStore σ] (store : σ) (subs : Table Subscription) :
    Prop where
  list : ∀ s, s ∈ SubscriptionStore.list store ↔ subs.get? s.id = some s
  byStop : ∀ key s, s ∈ SubscriptionStore.byStop store key ↔
    subs.get? s.id = some s ∧ key ∈ s.stops
  byLine : ∀ key s, s ∈ SubscriptionStore.byLine store key ↔
    subs.get? s.id = some s ∧ key ∈ s.lineRefs
  byCodespace : ∀ key s, s ∈ SubscriptionStore.byCodespace store key ↔
    subs.get? s.id = some s ∧ key ∈ s.codespaces

section
variable {σ : Type} [SubscriptionStore σ] {m : Matcher σ} {subs : Table Subscription}

theorem mem_forStop (h : AnswersFrom m.store subs) {stop : String} {s : Subscription} :
    s ∈ m.forStop stop ↔ subs.get? s.id = some s ∧ (stop ∈ s.stops ∨ Ref.isQuay stop = true ∧
      ∃ station, m.topology.stationOf? stop = some station ∧ station ∈ s.stops) := by
  rw [forStop, List.mem_append, h.byStop, and_or_left]
  refine or_congr_right ?_
  cases Ref.isQuay stop with
  | false => simp
  | true =>
    cases m.topology.stationOf? stop with
    | none => simp
    | some station => simp [h.byStop]

theorem holds_concerned (h : AnswersFrom m.store subs) (hown : OwnIds subs)
    (journeys : List AffectedJourney) (codespace : Option String) :
    ∃ found, Holds subs found (fun s => ∃ j ∈ journeys, ∃ row, j.IsRow m.routes row ∧
        (JourneyView.mk j.lineRef j.journeyRefs codespace row).Meets m.topology s) ∧
      m.concerned journeys codespace = found.values := by
  refine ⟨_, ?_, rfl⟩
  have hfold := (@Holds.nothing subs).foldl
    (f := fun found v => collect found (v.concerns m.topology) (SubscriptionStore.list m.store))
    (journeys.flatMap (m.views codespace))
    fun v _ hf => hf.collect hown (fun s hs => (h.list s).mp hs) (v.concerns m.topology)
  refine hfold.congr (fun s hs => ?_) hown
  simp only [false_or, List.mem_flatMap, mem_views, JourneyView.concerns_iff]
  constructor
  · intro hconcerned
    obtain ⟨v, ⟨j, hj, row, hrow, rfl⟩, -, hmeets⟩ := hconcerned
    exact ⟨j, hj, row, hrow, hmeets⟩
  · intro hconcerned
    obtain ⟨j, hj, row, hrow, hmeets⟩ := hconcerned
    exact ⟨_, ⟨j, hj, row, hrow, rfl⟩, (h.list s).mpr hs, hmeets⟩

theorem mem_concerned (h : AnswersFrom m.store subs) (hown : OwnIds subs)
    {journeys : List AffectedJourney} {codespace : Option String} {s : Subscription} :
    s ∈ m.concerned journeys codespace ↔ subs.get? s.id = some s ∧
      ∃ j ∈ journeys, ∃ row, j.IsRow m.routes row ∧
        (JourneyView.mk j.lineRef j.journeyRefs codespace row).Meets m.topology s := by
  obtain ⟨found, hfound, hvalues⟩ := holds_concerned h hown journeys codespace
  rw [hvalues]
  exact hfound.mem_values hown

theorem holds_onStops (h : AnswersFrom m.store subs) (hown : OwnIds subs) (scope : Scope) :
    Holds subs (gather ∅ (scope.registryStops.toList.flatMap m.forStop))
      (scope.OnStop m.topology) := by
  have hstored : Stored subs (scope.registryStops.toList.flatMap m.forStop) := by
    intro s hs
    obtain ⟨stop, -, hfor⟩ := List.mem_flatMap.mp hs
    exact ((mem_forStop h).mp hfor).1
  refine (Holds.nothing.gather hown hstored).congr (fun s hs => ?_) hown
  simp only [false_or, List.mem_flatMap, RefSet.mem_toList, Scope.mem_registryStops, mem_forStop h,
    hs, true_and, Scope.OnStop, and_assoc]

theorem holds_onLines (h : AnswersFrom m.store subs) (hown : OwnIds subs) (scope : Scope)
    (participant : Option String) {found : Table Subscription} {p : Subscription → Prop}
    (hf : Holds subs found p) :
    Holds subs
      (scope.networkLines.toList.foldl (fun found line => collect found
        (fun t => t.hasNoStops && t.acceptsCodespace participant)
        (SubscriptionStore.byLine m.store line)) found)
      fun s => p s ∨ scope.OnNetworkLine participant s := by
  have hfold := hf.foldl (f := fun found line => collect found
      (fun t => t.hasNoStops && t.acceptsCodespace participant)
      (SubscriptionStore.byLine m.store line)) scope.networkLines.toList
    fun line _ hf => hf.collect hown (fun s hs => ((h.byLine line s).mp hs).1) _
  refine hfold.congr (fun s hs => or_congr_right ?_) hown
  simp only [RefSet.mem_toList, Scope.mem_networkLines, h.byLine, hs, true_and, Bool.and_eq_true,
    Subscription.acceptsCodespace_iff, Scope.OnNetworkLine]
  constructor
  · intro hfound
    obtain ⟨line, ⟨n, hn, l, hl, href⟩, hline, hstops, hcodespace⟩ := hfound
    exact ⟨hstops, hcodespace, n, hn, l, hl, line, href, hline⟩
  · intro hline
    obtain ⟨hstops, hcodespace, n, hn, l, hl, line, href, hline⟩ := hline
    exact ⟨line, ⟨n, hn, l, hl, href⟩, hline, hstops, hcodespace⟩

theorem holds_onCodespace (h : AnswersFrom m.store subs) (hown : OwnIds subs) (codespace : String)
    {found : Table Subscription} {p : Subscription → Prop} (hf : Holds subs found p) :
    Holds subs
      (collect found (fun t => t.hasNoStops && t.lineRefs.isEmpty)
        (SubscriptionStore.byCodespace m.store codespace))
      fun s => p s ∨ s.OnCodespace (some codespace) := by
  have hall := hf.collect hown (fun s hs => ((h.byCodespace codespace s).mp hs).1)
    fun t => t.hasNoStops && t.lineRefs.isEmpty
  refine hall.congr (fun s hs => or_congr_right ?_) hown
  simp only [h.byCodespace, hs, true_and, Bool.and_eq_true, Subscription.OnCodespace,
    Option.some.injEq, exists_eq_left']
  exact ⟨fun ⟨hc, hs, hl⟩ => ⟨hs, hl, hc⟩, fun ⟨hs, hl, hc⟩ => ⟨hc, hs, hl⟩⟩

/-- What is selected for a situation is a table of the subscriptions that it concerns. -/
theorem holds_selectSituation (h : AnswersFrom m.store subs) (hown : OwnIds subs)
    (situation : Situation) :
    ∃ found, Holds subs found (situation.Concerns m.topology m.routes) ∧
      m.selectSituation situation = found.values := by
  unfold selectSituation
  cases haffects : situation.affects with
  | none =>
    refine ⟨∅, Holds.nothing.congr (fun s _ => ?_) hown, rfl⟩
    simp [Situation.Concerns, haffects]
  | some scope =>
    refine ⟨_, ?_, rfl⟩
    obtain ⟨journeys, hjourneys, hvalues⟩ :=
      holds_concerned h hown scope.journeys situation.participant
    have hstored : Stored subs (m.concerned scope.journeys situation.participant) := by
      intro s hs
      rw [hvalues] at hs
      exact ((hjourneys.mem_values hown).mp hs).1
    have honJourneys := (holds_onStops h hown scope).gather hown hstored
    have honLines := holds_onLines h hown scope situation.participant honJourneys
    have hways : ∀ s, subs.get? s.id = some s → (situation.Concerns m.topology m.routes s ↔
        ((scope.OnStop m.topology s ∨ s ∈ m.concerned scope.journeys situation.participant) ∨
          scope.OnNetworkLine situation.participant s) ∨ s.OnCodespace situation.participant) := by
      intro s hs
      rw [hvalues, hjourneys.mem_values hown]
      simp only [Situation.Concerns, haffects, Option.some.injEq, exists_eq_left', hs, true_and,
        Scope.OnJourney, or_assoc]
    cases hparticipant : situation.participant with
    | none =>
      rw [hparticipant] at honLines hways
      refine honLines.congr (fun s hs => ?_) hown
      rw [hways s hs]
      simp [Subscription.OnCodespace]
    | some codespace =>
      rw [hparticipant] at honLines hways
      exact (holds_onCodespace h hown codespace honLines).congr (fun s hs => (hways s hs).symm) hown

theorem mem_selectSituation (h : AnswersFrom m.store subs) (hown : OwnIds subs)
    {situation : Situation} {s : Subscription} : s ∈ m.selectSituation situation ↔
      subs.get? s.id = some s ∧ situation.Concerns m.topology m.routes s := by
  obtain ⟨found, hfound, hvalues⟩ := holds_selectSituation h hown situation
  rw [hvalues]
  exact hfound.mem_values hown

/-- What is selected for a journey update is a table of the subscriptions whose criteria it meets. -/
theorem holds_selectJourney (h : AnswersFrom m.store subs) (hown : OwnIds subs) (u : JourneyUpdate) :
    ∃ found, Holds subs found (fun s => (m.viewOf u).Meets m.topology s) ∧
      m.selectJourney u = found.values := by
  refine ⟨_, ?_, rfl⟩
  have hall := (@Holds.nothing subs).collect hown (fun s hs => (h.list s).mp hs)
    ((m.viewOf u).concerns m.topology)
  refine hall.congr (fun s hs => ?_) hown
  simp only [false_or, (h.list s).mpr hs, true_and, JourneyView.concerns_iff]

theorem holds_select (h : AnswersFrom m.store subs) (hown : OwnIds subs) (e : Event) :
    ∃ found p, Holds subs found p ∧ m.select e = found.values := by
  cases e with
  | situation s =>
    obtain ⟨found, hfound, hvalues⟩ := holds_selectSituation h hown s
    exact ⟨found, _, hfound, hvalues⟩
  | journey u =>
    obtain ⟨found, hfound, hvalues⟩ := holds_selectJourney h hown u
    exact ⟨found, _, hfound, hvalues⟩

/-- Subscriptions are selected by ascending identifier. -/
theorem select_ascending (h : AnswersFrom m.store subs) (hown : OwnIds subs) (e : Event) :
    ((m.select e).map Subscription.id).Pairwise (· < ·) := by
  obtain ⟨found, p, hfound, hvalues⟩ := holds_select h hown e
  rw [hvalues]
  exact hfound.ascending hown

theorem stored_select (h : AnswersFrom m.store subs) (hown : OwnIds subs) (e : Event) :
    Stored subs (m.select e) := by
  obtain ⟨found, p, hfound, hvalues⟩ := holds_select h hown e
  intro s hs
  rw [hvalues] at hs
  exact ((hfound.mem_values hown).mp hs).1

end
end Matcher

/-! ## Selection from a store -/

/-- Two stores answer every query with the same subscriptions, each in its own order. -/
structure Shuffled {σ τ : Type} [SubscriptionStore σ] [SubscriptionStore τ] (a : σ) (b : τ) :
    Prop where
  list : (SubscriptionStore.list a).Perm (SubscriptionStore.list b)
  byStop : ∀ key, (SubscriptionStore.byStop a key).Perm (SubscriptionStore.byStop b key)
  byLine : ∀ key, (SubscriptionStore.byLine a key).Perm (SubscriptionStore.byLine b key)
  byCodespace : ∀ key,
    (SubscriptionStore.byCodespace a key).Perm (SubscriptionStore.byCodespace b key)

theorem MemoryStore.Consistent.answersFrom {m : MemoryStore} (h : m.Consistent) :
    Matcher.AnswersFrom m m.subscriptions where
  list _ := h.own.mem_values
  byStop key s := by rw [(h.exactly_byStop key).mem, Subscription.mem_stops]; exact Iff.rfl
  byLine key s := (h.exactly_byLine key).mem s
  byCodespace key s := (h.exactly_byCodespace key).mem s

theorem Shuffled.answersFrom {σ τ : Type} [SubscriptionStore σ] [SubscriptionStore τ] {a : σ}
    {b : τ} {subs : Table Subscription} (h : Shuffled a b) (hb : Matcher.AnswersFrom b subs) :
    Matcher.AnswersFrom a subs where
  list s := h.list.mem_iff.trans (hb.list s)
  byStop key s := (h.byStop key).mem_iff.trans (hb.byStop key s)
  byLine key s := (h.byLine key).mem_iff.trans (hb.byLine key s)
  byCodespace key s := (h.byCodespace key).mem_iff.trans (hb.byCodespace key s)

/-- **Selection.** From every store that a run leads to, with any topology and any live routes, the
subscriptions selected for a situation are those stored that it concerns, by ascending identifier and
so each once. A store that lists the same subscriptions in another order has the same ones
selected. -/
theorem selectSituation_exact (ops : List StoreOp) (hfresh : StoreOp.Fresh MemoryStore.empty ops)
    (t : Topology) (routes : LiveRoutes) (situation : Situation) :
    let store := StoreOp.run MemoryStore.empty ops
    let selected := Matcher.selectSituation ⟨store, t, routes⟩ situation
    (selected.map Subscription.id).Pairwise (· < ·) ∧
    (∀ s, s ∈ selected ↔
      SubscriptionStore.get? store s.id = some s ∧ situation.Concerns t routes s) ∧
    ∀ {σ : Type} [SubscriptionStore σ] (other : σ), Shuffled other store →
      Matcher.selectSituation ⟨other, t, routes⟩ situation = selected := by
  intro store selected
  have h : store.Consistent := MemoryStore.Consistent.empty.run ops hfresh
  obtain ⟨found, hfound, hvalues⟩ :=
    Matcher.holds_selectSituation (m := ⟨store, t, routes⟩) h.answersFrom h.own situation
  have hselected : selected = found.values := hvalues
  refine ⟨?_, fun s => ?_, fun other hshuffled => ?_⟩
  · rw [hselected]
    exact hfound.ascending h.own
  · rw [hselected]
    exact hfound.mem_values h.own
  · obtain ⟨found', hfound', hselected'⟩ :=
      Matcher.holds_selectSituation (m := ⟨other, t, routes⟩) (hshuffled.answersFrom h.answersFrom)
        h.own situation
    rw [hselected', hfound'.unique hfound]
    exact hselected.symm

/-- Subscribers between two stations, on a line, to a codespace and on a line of another codespace. -/
def fourSubscribers : List StoreOp :=
  let pushing := Subscription.pushing "" "http://localhost"
  [.add "4" ((pushing.withLine "NSB:Line:1").withCodespace "RUT"),
    .add "3" (pushing.withCodespace "NSB"),
    .add "2" (pushing.withLine "NSB:Line:1"),
    .add "1" (pushing.withStops "NSR:StopPlace:1" "NSR:StopPlace:2")]

/-- A quay is closed, and a line with it. -/
def closedQuay : Situation :=
  { Situation.numbered "1" 1 with
    participant := some "NSB"
    affects := some { Scope.empty with
      stopPoints := [⟨some "NSR:Quay:11", none⟩]
      networks := [⟨none, [⟨some "NSB:Line:1"⟩]⟩] } }

theorem selectSituation_exact_closedQuay :
    let store := StoreOp.run MemoryStore.empty fourSubscribers
    let t := Topology.empty.withStation "NSR:StopPlace:1" ["NSR:Quay:11"]
    let selected := Matcher.selectSituation ⟨store, t, ∅⟩ closedQuay
    StoreOp.Fresh MemoryStore.empty fourSubscribers ∧
    selected.map Subscription.id = ["1", "2", "3"] ∧
    ∀ s ∈ selected, closedQuay.Concerns t ∅ s := by
  intro store t selected
  have hfresh : StoreOp.Fresh MemoryStore.empty fourSubscribers := by decide
  obtain ⟨-, hmem, -⟩ := selectSituation_exact fourSubscribers hfresh t ∅ closedQuay
  exact ⟨hfresh, by decide, fun s hs => ((hmem s).mp hs).2⟩

end TransitPush
