import TransitPush.Proofs.Routing.Direction
import TransitPush.Proofs.Routing.Selection
/-!
# Quays and their stations

Selection goes from a stop up to its station, matching and trimming go from a subscribed station down
to its quays. A quay that is listed under several stations has one of them only, the last, but is a
quay of each. So the two ways agree on the stops that are listed under one station.

* `Topology.Made`: topologies come about station by station, or from a text.
* `Topology.Linked`: each way from a quay to its station leads back. What is made is linked
  (`Topology.Made.linked`).
* `Topology.mem_subscribedStops_iff`: the way down finds those on the stop or its station, and those
  on another station that lists the stop.
* `forStop_ways`: how the two ways differ, and on which stops they agree for every store.
* `forStop_shared_quay`: a quay under two stations, on which they do not.
-/
namespace TransitPush

/-- No reference is one of a station and of a quay. -/
theorem Ref.ne_of_station_of_quay {station quay : String} (hs : isStation station = true)
    (hq : isQuay quay = true) : quay ≠ station := by
  rintro rfl
  have hstation := List.isPrefixOf_iff_prefix.mp hs
  have hquay := List.isPrefixOf_iff_prefix.mp hq
  have hprefix := List.prefix_of_prefix_length_le hquay hstation (by decide)
  exact absurd (List.isPrefixOf_iff_prefix.mpr hprefix) (by decide)

namespace Topology

variable {t : Topology} {station other stop : String} {quays : List String}

/-! ## How topologies are made -/

theorem stationOf?_withStation : (t.withStation station quays).stationOf? stop =
    if stop ∈ quays then some station else t.stationOf? stop := by
  have hfold : ∀ (quays : List String) (stations : Table String),
      (quays.foldl (fun ss quay => ss.insert quay station) stations).get? stop =
        if stop ∈ quays then some station else stations.get? stop := by
    intro quays
    induction quays with
    | nil => exact fun stations => rfl
    | cons quay rest ih =>
      intro stations
      rw [List.foldl_cons, ih, Table.get?_insert]
      by_cases hrest : stop ∈ rest
      · rw [if_pos hrest, if_pos (List.mem_cons_of_mem _ hrest)]
      · simp [hrest]
  exact hfold quays t.stations

theorem mem_quaysOf_withStation : stop ∈ (t.withStation station quays).quaysOf other ↔
    stop ∈ t.quaysOf other ∨ other = station ∧ stop ∈ quays := by
  unfold quaysOf withStation
  dsimp only
  rw [Table.get?_insert]
  by_cases hother : other = station
  · subst hother
    rw [if_pos rfl, Option.getD_some, RefSet.mem_insertAll, or_comm]
    simp
  · simp [hother]

/-- Topologies come about by adding a station with its quays, or from a text. -/
inductive Made : Topology → Prop where
  | empty : Made .empty
  | withStation {t : Topology} (h : Made t) (station : String) (quays : List String) :
    Made (t.withStation station quays)
  | decode {text : String} {t : Topology} (h : decode text = .ok t) : Made t

/-- The station of a quay lists it, and every quay that is listed has a station. -/
structure Linked (t : Topology) : Prop where
  up : ∀ stop station, t.stationOf? stop = some station → stop ∈ t.quaysOf station
  down : ∀ stop station, stop ∈ t.quaysOf station → ∃ last, t.stationOf? stop = some last

theorem Linked.empty : Linked .empty where
  up stop station h := by cases h
  down stop station h := absurd h (RefSet.not_mem_empty stop)

theorem Linked.withStation (h : t.Linked) (station : String) (quays : List String) :
    (t.withStation station quays).Linked where
  up stop other hup := by
    rw [stationOf?_withStation] at hup
    rw [mem_quaysOf_withStation]
    split at hup
    · rename_i hmem
      cases hup
      exact .inr ⟨rfl, hmem⟩
    · exact .inl (h.up stop other hup)
  down stop other hdown := by
    rw [stationOf?_withStation]
    split
    · exact ⟨station, rfl⟩
    · rename_i hnot
      rcases mem_quaysOf_withStation.mp hdown with hold | ⟨-, hmem⟩
      · exact h.down stop other hold
      · exact absurd hmem hnot

/-- A text is read as a list of stations with their quays. -/
theorem ofStations_of_decode {text : String} (h : decode text = .ok t) :
    ∃ stations, t = ofStations stations := by
  unfold decode Json.Document.decode at h
  cases hread : read .document (Json.Document.parse text.toUTF8.data.toList).root with
  | error e =>
    rw [hread] at h
    cases h
  | ok read =>
    rw [hread] at h
    simp only [bind, Except.bind] at h
    split at h
    · cases h
    · cases h
      unfold Topology.read at hread
      split at hread
      · simp only [bind, Except.bind] at hread
        split at hread
        · cases hread
        · split at hread
          · cases hread
          · split at hread
            · cases hread
            · cases hread
              exact ⟨_, rfl⟩
      · cases hread

/-- However a topology was made, its two directions go together. -/
theorem Made.linked (h : t.Made) : t.Linked := by
  induction h with
  | empty => exact .empty
  | withStation _ station quays ih => exact ih.withStation station quays
  | decode h =>
    obtain ⟨stations, rfl⟩ := ofStations_of_decode h
    have hfold : ∀ (stations : List (String × List String)) (t : Topology), t.Linked →
        (stations.foldl (fun t s => t.withStation s.1 s.2) t).Linked := by
      intro stations
      induction stations with
      | nil => exact fun _ ht => ht
      | cons s rest ih => exact fun _ ht => ih _ (ht.withStation s.1 s.2)
    exact hfold stations .empty .empty

/-! ## Two ways -/

def WellNamed (t : Topology) : Prop :=
  ∀ stop station, stop ∈ t.quaysOf station →
    Ref.isStation station = true ∧ Ref.isQuay stop = true

/-- The stop is listed under one station at most. -/
def OneStation (t : Topology) (stop : String) : Prop :=
  ∀ station other, stop ∈ t.quaysOf station → stop ∈ t.quaysOf other → station = other

/-- Up from the stop: the subscription is on the stop itself or on its station. -/
def Above (t : Topology) (stop : String) (s : Subscription) : Prop :=
  stop ∈ s.stops ∨ ∃ station, t.stationOf? stop = some station ∧ station ∈ s.stops

/-- The subscription is on a station that lists the stop but is not the station of the stop. -/
def Aside (t : Topology) (stop : String) (s : Subscription) : Prop :=
  ∃ station ∈ s.stops, stop ∈ t.quaysOf station ∧ t.stationOf? stop ≠ some station

variable {s : Subscription}

/-- Down from the subscription its stops are those above which it is, and those that it is aside
of. -/
theorem mem_subscribedStops_iff (h : t.Linked) (hnames : t.WellNamed) :
    stop ∈ t.subscribedStops s ↔ t.Above stop s ∨ t.Aside stop s := by
  rw [subscribedStops, mem_expand]
  constructor
  · rintro (hown | ⟨station, hstation, -, hquay⟩)
    · exact .inl (.inl hown)
    · by_cases hlast : t.stationOf? stop = some station
      · exact .inl (.inr ⟨station, hlast, hstation⟩)
      · exact .inr ⟨station, hstation, hquay, hlast⟩
  · rintro ((hown | ⟨station, hlast, hstation⟩) | ⟨station, hstation, hquay, -⟩)
    · exact .inl hown
    · have hquay := h.up stop station hlast
      exact .inr ⟨station, hstation, (hnames stop station hquay).1, hquay⟩
    · exact .inr ⟨station, hstation, (hnames stop station hquay).1, hquay⟩

theorem OneStation.not_aside (hone : t.OneStation stop) (h : t.Linked) : ¬ t.Aside stop s := by
  rintro ⟨station, -, hquay, hnot⟩
  obtain ⟨last, hlast⟩ := h.down stop station hquay
  rw [hone station last hquay (h.up stop last hlast)] at hnot
  exact hnot hlast

end Topology

/-- What a store finds for a stop is what it has above the stop. -/
theorem Matcher.mem_forStop_iff {σ : Type} [SubscriptionStore σ] {m : Matcher σ}
    {subs : Table Subscription} (h : AnswersFrom m.store subs) (ht : m.topology.Linked)
    (hnames : m.topology.WellNamed) {stop : String} {s : Subscription} :
    s ∈ m.forStop stop ↔ subs.get? s.id = some s ∧ m.topology.Above stop s := by
  rw [mem_forStop h]
  refine and_congr_right fun _ => or_congr_right ?_
  constructor
  · exact fun hup => hup.2
  · rintro ⟨station, hlast, hstation⟩
    exact ⟨(hnames stop station (ht.up stop station hlast)).2, station, hlast, hstation⟩

def onStation (station : String) : List StoreOp :=
  [.add "a" ((Subscription.pushing "" "http://a").withStops station station)]

/-- **Quays and stations.** With any topology whose stations and quays are named as such, and from
every store that a run leads to: the subscriptions found for a stop are those stored that are on the
stop or on its station. The stop is among the stops of each of them, and apart from them only among
those of subscriptions on another station that lists it. The two ways agree on a stop, whatever is
stored, exactly if the stop is listed under one station at most. -/
theorem forStop_ways {t : Topology} (ht : t.Made) (hnames : t.WellNamed) (routes : LiveRoutes)
    (stop : String) :
    (∀ ops, StoreOp.Fresh MemoryStore.empty ops →
      let store := StoreOp.run MemoryStore.empty ops
      let found := Matcher.forStop ⟨store, t, routes⟩ stop
      (∀ s, s ∈ found ↔ SubscriptionStore.get? store s.id = some s ∧ t.Above stop s) ∧
      ∀ s, SubscriptionStore.get? store s.id = some s →
        (stop ∈ t.subscribedStops s ↔ s ∈ found ∨ t.Aside stop s)) ∧
    ((∀ ops, StoreOp.Fresh MemoryStore.empty ops →
      let store := StoreOp.run MemoryStore.empty ops
      ∀ s, s ∈ Matcher.forStop ⟨store, t, routes⟩ stop ↔
        SubscriptionStore.get? store s.id = some s ∧ stop ∈ t.subscribedStops s) ↔
      t.OneStation stop) := by
  have hlinked := ht.linked
  have hfound : ∀ ops, StoreOp.Fresh MemoryStore.empty ops → ∀ s,
      s ∈ Matcher.forStop ⟨StoreOp.run MemoryStore.empty ops, t, routes⟩ stop ↔
        SubscriptionStore.get? (StoreOp.run MemoryStore.empty ops) s.id = some s ∧
          t.Above stop s := by
    intro ops hfresh s
    have h := MemoryStore.Consistent.empty.run ops hfresh
    exact Matcher.mem_forStop_iff h.answersFrom hlinked hnames
  refine ⟨fun ops hfresh => ⟨hfound ops hfresh, fun s hget => ?_⟩, ?_, ?_⟩
  · rw [hfound ops hfresh, Topology.mem_subscribedStops_iff hlinked hnames]
    exact or_congr_left (and_iff_right hget).symm
  · intro hagree
    -- of two stations one is not the station of the stop, and who is on that one alone is not found
    have hlast : ∀ station, stop ∈ t.quaysOf station → t.stationOf? stop = some station := by
      intro station hquay
      obtain ⟨hstation, hstop⟩ := hnames stop station hquay
      let s : Subscription :=
        { (Subscription.pushing "" "http://a").withStops station station with id := "a" }
      have hstops : ∀ x, x ∈ s.stops ↔ x = station := fun x => by
        rw [show s.stops = [station, station] from rfl]
        simp
      have hsub : stop ∈ t.subscribedStops s :=
        Topology.mem_expand.mpr (.inr ⟨station, List.mem_cons_self, hstation, hquay⟩)
      have hmem := (hagree (onStation station) ⟨rfl, trivial⟩ s).mpr ⟨rfl, hsub⟩
      obtain ⟨-, hown | ⟨last, hlast, hlisted⟩⟩ :=
        (hfound (onStation station) ⟨rfl, trivial⟩ s).mp hmem
      · exact absurd ((hstops _).mp hown) (Ref.ne_of_station_of_quay hstation hstop)
      · rw [hlast, (hstops _).mp hlisted]
    intro station other hstation hother
    exact Option.some.inj ((hlast station hstation).symm.trans (hlast other hother))
  · intro hone ops hfresh store s
    rw [hfound ops hfresh, Topology.mem_subscribedStops_iff hlinked hnames,
      or_iff_left (hone.not_aside hlinked)]

/-- Two stations, each with a quay of its own and the second with a quay of the first too. -/
def sharedQuay : Topology :=
  (Topology.empty.withStation "NSR:StopPlace:1" ["NSR:Quay:1", "NSR:Quay:2"]).withStation
    "NSR:StopPlace:2" ["NSR:Quay:1", "NSR:Quay:3"]

theorem sharedQuay_made : sharedQuay.Made :=
  .withStation (.withStation .empty _ _) _ _

theorem mem_quaysOf_sharedQuay {stop station : String} : stop ∈ sharedQuay.quaysOf station ↔
    station = "NSR:StopPlace:1" ∧ (stop = "NSR:Quay:1" ∨ stop = "NSR:Quay:2") ∨
    station = "NSR:StopPlace:2" ∧ (stop = "NSR:Quay:1" ∨ stop = "NSR:Quay:3") := by
  have hempty : stop ∉ Topology.empty.quaysOf station := RefSet.not_mem_empty stop
  rw [sharedQuay, Topology.mem_quaysOf_withStation, Topology.mem_quaysOf_withStation,
    or_iff_right hempty]
  simp only [List.mem_cons, List.not_mem_nil, or_false]

theorem sharedQuay_wellNamed : sharedQuay.WellNamed := by
  intro stop station h
  rcases mem_quaysOf_sharedQuay.mp h with ⟨rfl, rfl | rfl⟩ | ⟨rfl, rfl | rfl⟩ <;>
    exact ⟨by decide, by decide⟩

def onSharedStations : List StoreOp :=
  [.add "a" ((Subscription.pushing "" "http://a").withStops "NSR:StopPlace:1" "NSR:StopPlace:9"),
   .add "b" ((Subscription.pushing "" "http://b").withStops "NSR:StopPlace:2" "NSR:StopPlace:9")]

/-- For the shared quay the subscription on the last station is found, and not the one on the first,
which has the quay among its stops. -/
theorem forStop_sharedQuay :
    let store := StoreOp.run MemoryStore.empty onSharedStations
    sharedQuay.Made ∧ sharedQuay.WellNamed ∧ StoreOp.Fresh MemoryStore.empty onSharedStations ∧
      (Matcher.forStop ⟨store, sharedQuay, .empty⟩ "NSR:Quay:1").map (·.id) = ["b"] ∧
      ∃ s, SubscriptionStore.get? store "a" = some s ∧
        "NSR:Quay:1" ∈ sharedQuay.subscribedStops s :=
  ⟨sharedQuay_made, sharedQuay_wellNamed, by decide, by decide, _, rfl, by decide⟩

/-- For a quay that one of the two stations lists both ways find the same. -/
theorem forStop_ownQuay :
    sharedQuay.Made ∧ sharedQuay.WellNamed ∧ sharedQuay.OneStation "NSR:Quay:2" ∧
    StoreOp.Fresh MemoryStore.empty onSharedStations ∧
    ∀ s, s ∈ Matcher.forStop
        ⟨StoreOp.run MemoryStore.empty onSharedStations, sharedQuay, .empty⟩ "NSR:Quay:2" ↔
      SubscriptionStore.get? (StoreOp.run MemoryStore.empty onSharedStations) s.id = some s ∧
        "NSR:Quay:2" ∈ sharedQuay.subscribedStops s := by
  have hone : sharedQuay.OneStation "NSR:Quay:2" := by
    intro station other h h'
    rw [mem_quaysOf_sharedQuay] at h h'
    grind
  have hways := forStop_ways sharedQuay_made sharedQuay_wellNamed .empty "NSR:Quay:2"
  exact ⟨sharedQuay_made, sharedQuay_wellNamed, hone, by decide,
    hways.2.mpr hone onSharedStations (by decide)⟩

end TransitPush
