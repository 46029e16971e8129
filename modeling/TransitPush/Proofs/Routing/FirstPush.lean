import TransitPush.Proofs.Registry.Lifecycle
import TransitPush.Proofs.Routing.Pushes
import TransitPush.Proofs.Routing.Remainder
/-!
# Who is told of a situation at first

As long as the record has no push of a version of a situation to a subscriber, the subscriber is told
of it exactly if the situation concerns the subscription and trimming leaves something. The two are
decided apart from each other: a journey that concerns a subscription by its live route may list none
of its stops, and then nothing of the journey is left.

* `Hub.Reached`: hubs whose registry operations on an empty one lead to.
* `Hub.told_iff`: who gets a push of a version that was not sent.
* `AffectedJourney.not_remains`: how trimming may undo what a journey says.
* `Hub.journeys_kept`: when it does; `Hub.journeys_undone`: that it does.
-/
namespace TransitPush

/-! ## Hubs that are reached -/

/-- The hub's registry is one that operations on an empty registry lead to. The names it draws serve as
identifiers and have no underscore. -/
def Hub.Reached {τ : Type} (h : Hub MemoryStore τ) : Prop :=
  ∃ (c : Courier MemoryStore τ) (ops : List RegistryOp), c.registry.store = .empty ∧
    c.registry.ids.Proper ∧ (∀ i, PlainId (c.registry.ids.name i)) ∧
    h.registry = (c.manageAll ops).registry

theorem Supply.tally_plain (i : Nat) : PlainId (tally.name i) := by
  simp [PlainId, tally, List.mem_replicate]

namespace Hub.Reached

variable {τ : Type} {h : Hub MemoryStore τ}

theorem lawful (hr : h.Reached) : h.registry.Lawful := by
  obtain ⟨c, ops, hstore, hids, -, hregistry⟩ := hr
  rw [hregistry]
  exact Courier.lawful_manageAll (.empty hstore hids) ops

theorem named (hr : h.Reached) : h.store.Named := by
  have hlawful := hr.lawful
  refine ⟨hlawful.consistent, fun id s hget => ?_⟩
  obtain ⟨i, -, rfl⟩ := hlawful.issued id s hget
  obtain ⟨c, ops, hstore, hids, hplain, hregistry⟩ := hr
  rw [hregistry, Courier.name_manageAll (.empty hstore hids)]
  exact hplain i

end Hub.Reached

/-! ## First pushes -/

namespace Hub

variable {τ : Type} {h : Hub MemoryStore τ} {situation : Situation} {scope : Scope}
  {s : Subscription} {now : Timestamp}

/-- The record has no push of the situation's version to the subscriber. -/
def Unsent (h : Hub MemoryStore τ) (s : Subscription) (situation : Situation) : Prop :=
  ∀ fresh, h.dedup.sent.get? (fingerprint fresh s.id (.situation situation)) = none

theorem mem_selectSituation (hn : h.store.Named) : s ∈ h.matcher.selectSituation situation ↔
    SubscriptionStore.get? h.store s.id = some s ∧ situation.Concerns h.topology h.routes s :=
  Matcher.mem_selectSituation (m := h.matcher) hn.consistent.answersFrom hn.consistent.own

theorem mem_concerned (hn : h.store.Named) {participant : Option String} :
    s ∈ h.matcher.concerned scope.journeys participant ↔
      SubscriptionStore.get? h.store s.id = some s ∧
        scope.OnJourney h.topology h.routes participant s :=
  Matcher.mem_concerned (m := h.matcher) hn.consistent.answersFrom hn.consistent.own

/-- A version that was not sent is pushed to whom it concerns if something of it is left. -/
theorem told_iff (hn : h.store.Named) (hm : ¬ (Event.situation situation).Malformed)
    (ha : (Event.situation situation).Accepted h.accepted) (hunsent : h.Unsent s situation)
    (now : Timestamp) :
    ∃ pushes h', h.route (.situation situation) now = .ok (pushes, h') ∧
      ((∃ o ∈ pushes, o.subscription = s) ↔ s ∈ h.matcher.selectSituation situation ∧
        (situation.trimmed? s (h.topology.subscribedStops s)).isSome = true) := by
  refine ⟨_, _, route_eq hn hm ha, ?_⟩
  constructor
  · rintro ⟨o, ho, rfl⟩
    obtain ⟨m, hdue, rfl⟩ := List.mem_map.mp ho
    obtain ⟨hmem, -⟩ := DedupCache.mem_marked (List.mem_of_mem_filter hdue)
    obtain ⟨hselected, hcopy⟩ := DedupCache.mem_copies.mp hmem
    obtain ⟨copy, hcopy, -⟩ := Option.map_eq_some_iff.mp hcopy
    exact ⟨hselected, Option.isSome_iff_exists.mpr ⟨copy, hcopy⟩⟩
  · rintro ⟨hselected, hleft⟩
    obtain ⟨copy, hcopy⟩ := Option.isSome_iff_exists.mp hleft
    have hcandidate : ⟨s, .situation copy⟩ ∈ (h.candidates (.situation situation)).map
        Marked.outgoing := by
      rw [candidates, DedupCache.map_outgoing_marked, DedupCache.mem_copies]
      refine ⟨hselected, ?_⟩
      show (situation.trimmed? s (h.topology.subscribedStops s)).map Event.situation = _
      rw [hcopy]
      rfl
    obtain ⟨m, hmem, hout⟩ := List.mem_map.mp hcandidate
    refine ⟨m.outgoing, List.mem_map.mpr ⟨m, mem_due.mpr ⟨hmem, fun at_ hget => ?_⟩, rfl⟩, ?_⟩
    · -- the copy has the fingerprint of the situation, which the record does not have
      obtain ⟨-, i, -, hmark⟩ := DedupCache.mem_marked hmem
      rw [hmark, hout, Situation.fingerprint_trimmed? hcopy, hunsent] at hget
      cases hget
    · rw [hout]

end Hub

/-! ## Journeys -/

theorem Topology.mem_subscribedStops {t : Topology} {s : Subscription} {stop : String} :
    stop ∈ t.subscribedStops s ↔ t.Serves s.fromStops.toList stop ∨ t.Serves s.toStops.toList stop := by
  rw [subscribedStops, mem_expand]
  simp only [Serves, Subscription.stops, List.mem_append, or_and_right, exists_or]
  exact or_or_or_comm

/-- A row that goes the subscriber's way has one of the subscriber's stops. -/
theorem Topology.Passes.exists_mem {t : Topology} {s : Subscription} {row : List String}
    (h : t.Passes s row) : ∃ ref ∈ row, ref ∈ t.subscribedStops s := by
  obtain ⟨origin, destination, horigin, -, hsub⟩ := h
  exact ⟨origin, hsub.subset List.mem_cons_self, mem_subscribedStops.mpr (.inl horigin)⟩

namespace AffectedJourney

variable {j : AffectedJourney} {t : Topology} {routes : LiveRoutes} {s : Subscription}
  {participant : Option String} {row : List String}

/-- A journey without a line, on a line that is named, or for who names none. -/
theorem mayBeOnLineOf_of_named (hwell : s.WellFormed)
    (h : s.lineRefs.isEmpty = true ∨ j.lineRef = none ∨ ∃ line ∈ s.lineRefs, j.lineRef = some line) :
    j.MayBeOnLineOf s := by
  intro line hline _ hlines
  rcases h with hnone | hunnamed | ⟨named, hnamed, href⟩
  · rw [hlines] at hnone
    cases hnone
  · rw [hline] at hunnamed
    cases hunnamed
  · obtain rfl : line = named := Option.some.inj (hline.symm.trans href)
    rwa [(hwell.refs s.lineRefs (by simp [Subscription.criteria]) line hnamed).1]

/-- A journey whose line is a criterion that is met may be on a line of the subscription. -/
theorem mayBeOnLineOf (hwell : s.WellFormed)
    (hmeets : (JourneyView.mk j.lineRef j.journeyRefs participant row).Meets t s) :
    j.MayBeOnLineOf s := by
  cases hlines : s.lineRefs.isEmpty with
  | true => exact mayBeOnLineOf_of_named hwell (.inl hlines)
  | false =>
    obtain ⟨named, href, hnamed⟩ := hmeets.line hlines
    exact mayBeOnLineOf_of_named hwell (.inr (.inr ⟨named, hnamed, href⟩))

/-- Of a journey that meets the criteria nothing is left only if it has no routes, or if it meets them
by its live route while its routes list none of the subscriber's stops. -/
theorem not_remains (hwell : s.WellFormed) (hrow : j.IsRow routes row)
    (hmeets : (JourneyView.mk j.lineRef j.journeyRefs participant row).Meets t s)
    (hnot : ¬ j.Remains s (t.subscribedStops s)) :
    (s.hasNoStops = true ∧ j.routes = []) ∨
    (s.hasNoStops = false ∧ (∃ r ∈ j.routes, r.isComplete = false) ∧
      routes.FirstLive j.journeyRefs row ∧
      ∀ r ∈ j.routes, ∀ ref ∈ r.stopRefs, ¬ ref ∈ t.subscribedStops s) := by
  have hunlisted : ∀ r ∈ j.routes, s.hasNoStops = false ∧
      ∀ ref ∈ r.stopRefs, ¬ ref ∈ t.subscribedStops s := by
    intro r hr
    constructor
    · by_contra hstops
      exact hnot ⟨mayBeOnLineOf hwell hmeets, r, hr, fun h => absurd h hstops⟩
    · intro ref href hmem
      exact hnot ⟨mayBeOnLineOf hwell hmeets, r, hr, fun _ => ⟨ref, href, hmem⟩⟩
  -- a row that one of the routes lists has a stop of the subscriber
  have hlisted : ∀ r ∈ j.routes, row = r.stopRefs → False := by
    rintro r hr rfl
    obtain ⟨hstops, hnone⟩ := hunlisted r hr
    obtain ⟨ref, href, hmem⟩ := (hmeets.stops hstops).exists_mem
    exact hnone ref href hmem
  cases hrow with
  | unrouted hnil =>
    left
    cases hstops : s.hasNoStops with
    | true => exact ⟨rfl, hnil⟩
    | false =>
      obtain ⟨ref, href, -⟩ := (hmeets.stops hstops).exists_mem
      cases href
  | listed hr _ => exact (hlisted _ hr rfl).elim
  | live hr hincomplete hlive =>
    right
    exact ⟨(hunlisted _ hr).1, ⟨_, hr, hincomplete⟩, hlive, fun r hr => (hunlisted r hr).2⟩
  | unknown hr _ _ => exact (hlisted _ hr rfl).elim

end AffectedJourney

namespace Hub

variable {τ : Type} {h : Hub MemoryStore τ} {situation : Situation} {scope : Scope}
  {s : Subscription}

/-- **Selected by a journey and told.** A subscription that an affected journey concerns is told of a
version that was not sent exactly if trimming leaves something. For a subscription with stops that is
a stop place among them, a journey with a route that lists one of them, or a line it names. Nothing is
left only if each journey that concerns the subscription does so without having routes, or, if the
subscription has stops, by its live route while its routes list none of them. -/
theorem journeys_kept (hr : h.Reached) (haffects : situation.affects = some scope)
    (hs : s ∈ h.matcher.concerned scope.journeys situation.participant) :
    (situation.trimmed? s (h.topology.subscribedStops s) = none →
      ∀ j ∈ scope.journeys, ∀ row, j.IsRow h.routes row →
        (JourneyView.mk j.lineRef j.journeyRefs situation.participant row).Meets h.topology s →
        (s.hasNoStops = true ∧ j.routes = []) ∨
        (s.hasNoStops = false ∧ (∃ r ∈ j.routes, r.isComplete = false) ∧
          h.routes.FirstLive j.journeyRefs row ∧
          ∀ r ∈ j.routes, ∀ ref ∈ r.stopRefs, ¬ ref ∈ h.topology.subscribedStops s)) ∧
    (s.hasNoStops = false →
      ((situation.trimmed? s (h.topology.subscribedStops s)).isSome = true ↔
        scope.HasStopPlace s (h.topology.subscribedStops s) ∨
        (∃ j ∈ scope.journeys, j.Remains s (h.topology.subscribedStops s)) ∨
        scope.HasNetworkLine s)) ∧
    ∀ now, ¬ (Event.situation situation).Malformed →
      (Event.situation situation).Accepted h.accepted → h.Unsent s situation →
      ∃ pushes h', h.route (.situation situation) now = .ok (pushes, h') ∧
        ((∃ o ∈ pushes, o.subscription = s) ↔
          (situation.trimmed? s (h.topology.subscribedStops s)).isSome = true) := by
  obtain ⟨hstored, honJourney⟩ := (mem_concerned hr.named).mp hs
  have hwell : s.WellFormed := hr.lawful.wellFormed s.id s hstored
  refine ⟨?_, ?_, ?_⟩
  · intro hnone j hj row hrow hmeets
    refine AffectedJourney.not_remains hwell hrow hmeets fun hremains => ?_
    have hleft : (situation.trimmed? s (h.topology.subscribedStops s)).isSome = true := by
      refine Situation.isSome_trimmed?.mpr ⟨scope, haffects, ?_⟩
      split
      · exact Scope.hasProfile_iff.mpr (.inr (.inl ⟨j, hj⟩))
      · exact .inr (.inl ⟨j, hj, hremains⟩)
    rw [hnone] at hleft
    cases hleft
  · intro hstops
    have hnot : s.isFirehose = false := by simp [Subscription.isFirehose, hstops]
    rw [Situation.isSome_trimmed?]
    simp only [haffects, Option.some.injEq, exists_eq_left', hnot, Bool.false_eq_true, if_false]
  · intro now hm ha hunsent
    obtain ⟨pushes, h', hroute, htold⟩ := told_iff hr.named hm ha hunsent now
    refine ⟨pushes, h', hroute, htold.trans (and_iff_right ?_)⟩
    exact (mem_selectSituation hr.named).mpr ⟨hstored, scope, haffects, .inr (.inl honJourney)⟩

def stopsAndLine : List RegistryOp :=
  [.put ((Subscription.pushing "" "http://a").withStops "A" "D"),
    .put ((Subscription.pushing "" "http://b").withLine "1")]

/-- A hub with the two subscribers, which knows the live route of one journey. -/
def oneLiveRoute : Hub MemoryStore PlayedTransport where
  courier := Courier.idle.manageAll stopsAndLine
  topology := .empty
  routes := (∅ : LiveRoutes).put "j" ["A", "B", "C", "D"] .epoch
  dedup := .empty DedupCache.defaultTtl ⟨toString, 0⟩
  accepted := []
  planner := .ofInterval Planner.defaultCheckInterval

theorem reached_oneLiveRoute : oneLiveRoute.Reached :=
  ⟨Courier.idle, stopsAndLine, rfl, Supply.tally_proper, Supply.tally_plain, rfl⟩

def affecting (j : AffectedJourney) : Situation :=
  { Situation.numbered "1" 1 with affects := some { Scope.empty with journeys := [j] } }

/-- The journey is matched by its live route, and lists the last stop of it. -/
theorem journeys_kept_lastListed :
    let situation := affecting ⟨none, ["j"], [.through ["B", "D"] false]⟩
    oneLiveRoute.Reached ∧
    ∃ s ∈ oneLiveRoute.matcher.concerned [⟨none, ["j"], [.through ["B", "D"] false]⟩] none,
      s.id = "i" ∧ ∃ pushes h', oneLiveRoute.route (.situation situation) .epoch = .ok (pushes, h') ∧
        ∃ o ∈ pushes, o.subscription = s := by
  intro situation
  let s : Subscription := { (Subscription.pushing "" "http://a").withStops "A" "D" with id := "i" }
  have hs : s ∈ oneLiveRoute.matcher.concerned [⟨none, ["j"], [.through ["B", "D"] false]⟩] none := by
    decide
  obtain ⟨-, -, htold⟩ := @journeys_kept _ _ situation _ _ reached_oneLiveRoute rfl hs
  have hm : ¬ (Event.situation situation).Malformed := fun h => absurd (h "1" rfl) (by decide)
  obtain ⟨pushes, h', hroute, hpushed⟩ := htold .epoch hm (.inl rfl) fun _ => rfl
  exact ⟨reached_oneLiveRoute, s, hs, rfl, pushes, h', hroute, hpushed.mpr (by decide)⟩

/-- Two journeys that each concern a subscriber and of which trimming leaves nothing: one is matched by
its live route and lists a stop between the subscriber's, the other is on the subscriber's line and has
no routes. -/
theorem journeys_undone :
    let between : AffectedJourney := ⟨none, ["j"], [.through ["B"] false]⟩
    let unrouted : AffectedJourney := ⟨some "1", [], []⟩
    oneLiveRoute.Reached ∧
    ((oneLiveRoute.matcher.concerned [between] none).map Subscription.id = ["i"] ∧
      (∀ s ∈ oneLiveRoute.matcher.concerned [between] none,
        (affecting between).trimmed? s (oneLiveRoute.topology.subscribedStops s) = none) ∧
      (oneLiveRoute.route (.situation (affecting between)) .epoch).map Prod.fst = .ok []) ∧
    (oneLiveRoute.matcher.concerned [unrouted] none).map Subscription.id = ["ii"] ∧
      (∀ s ∈ oneLiveRoute.matcher.concerned [unrouted] none,
        (affecting unrouted).trimmed? s (oneLiveRoute.topology.subscribedStops s) = none) ∧
      (oneLiveRoute.route (.situation (affecting unrouted)) .epoch).map Prod.fst = .ok [] := by
  refine ⟨reached_oneLiveRoute, ⟨?_, ?_, ?_⟩, ?_, ?_, ?_⟩ <;> decide

end Hub
end TransitPush
