import TransitPush.Hub
import TransitPush.Proofs.Routing.Fingerprint
import TransitPush.Proofs.Routing.Selection
/-!
# The pushes that one event leads to

Routing goes through the selected subscriptions one by one: each gets its copy, which is checked
against the record of pushes and entered in it. As no two copies of one event have the same
fingerprint, the record might as well be left as it was until all are checked.

* `DedupCache.pushes_eq`: going through distinct copies keeps those that are not recent in the record
  before, and then enters them.
* `DedupCache.marks_nodup`: copies for subscriptions without underscores in their identifiers are
  distinct.
* `Hub.candidates`: the copies of an event of which something is left, each with its fingerprint.
* `Hub.copy_of_route`: what is pushed is the copy for a subscription that the event concerns.
* `Hub.route_exact`: what routing answers and what it leaves, for every hub over a store that a run
  leads to.
-/
namespace TransitPush

/-- A copy of an event for a subscription, with its fingerprint. -/
structure Marked where
  outgoing : Outgoing
  mark : String
deriving DecidableEq

/-! ## The record of pushes -/

namespace TimestampMap

variable {m : TimestampMap} {key k : String} {now at_ : Timestamp} {window : TimeDelta}

theorem isRecent_iff : m.isRecent key now window = true ↔
    ∃ at_, m.get? key = some at_ ∧ now.since at_ < window := by
  unfold isRecent
  cases m.get? key <;> simp

theorem isRecent_eq_false : m.isRecent key now window = false ↔
    ∀ at_, m.get? key = some at_ → ¬ now.since at_ < window := by
  rw [← Bool.not_eq_true, isRecent_iff]
  simp only [not_exists, not_and]

def enter (m : TimestampMap) (now : Timestamp) (keys : List String) : TimestampMap :=
  keys.foldl (fun m key => m.insert key now) m

theorem get?_enter {keys : List String} :
    (m.enter now keys).get? k = if k ∈ keys then some now else m.get? k := by
  induction keys generalizing m with
  | nil => rfl
  | cons key rest ih =>
    rw [enter, List.foldl_cons, ← enter, ih, Table.get?_insert]
    by_cases hk : k = key <;> by_cases hrest : k ∈ rest <;> simp [hk, hrest]

theorem isRecent_enter {keys : List String} : (m.enter now keys).isRecent k at_ window =
    if k ∈ keys then decide (at_.since now < window) else m.isRecent k at_ window := by
  unfold isRecent
  rw [get?_enter]
  by_cases hk : k ∈ keys
  · rw [if_pos hk, if_pos hk]
  · rw [if_neg hk, if_neg hk]

end TimestampMap

namespace DedupCache

variable {c : DedupCache} {now : Timestamp} {copy : Subscription → Option Event}

def copies (copy : Subscription → Option Event) (ss : List Subscription) : List Outgoing :=
  ss.filterMap fun s => (copy s).map fun e => ⟨s, e⟩

/-- Copies with their fingerprints, for which names are drawn in order. -/
def marked (fresh : Supply) (os : List Outgoing) : List Marked :=
  os.mapIdx fun i o => ⟨o, fingerprint (fresh.name (fresh.drawn + i)) o.subscription.id o.event⟩

theorem marked_cons {fresh : Supply} {o : Outgoing} {os : List Outgoing} :
    marked fresh (o :: os) =
      ⟨o, fingerprint (fresh.name fresh.drawn) o.subscription.id o.event⟩ ::
        marked { fresh with drawn := fresh.drawn + 1 } os := by
  simp only [marked, List.mapIdx_cons, Nat.add_zero, Nat.add_comm, Nat.add_left_comm]

theorem map_outgoing_marked {fresh : Supply} {os : List Outgoing} :
    (marked fresh os).map Marked.outgoing = os := by
  induction os generalizing fresh with
  | nil => rfl
  | cons o os ih => rw [marked_cons, List.map_cons, ih]

/-- The candidates that are no repetition of a recent push. -/
def due (c : DedupCache) (now : Timestamp) (ms : List Marked) : List Marked :=
  ms.filter fun m => !c.sent.isRecent m.mark now c.ttl

/-- The record with some fingerprints entered at a time, and some names drawn. -/
def recorded (c : DedupCache) (now : Timestamp) (marks : List String) (drawn : Nat) :
    DedupCache :=
  { c with
    sent := c.sent.enter now marks
    fresh := { c.fresh with drawn := c.fresh.drawn + drawn } }

theorem fresh_recorded {marks : List String} {n : Nat} :
    (c.recorded now marks n).fresh = { c.fresh with drawn := c.fresh.drawn + n } := rfl

theorem recorded_recorded {marks marks' : List String} {n n' : Nat} :
    (c.recorded now marks n).recorded now marks' n' =
      c.recorded now (marks ++ marks') (n + n') := by
  simp only [recorded, TimestampMap.enter, List.foldl_append, Nat.add_assoc]

theorem shouldSend_eq {id : SubscriptionId} {e : Event} :
    c.shouldSend id e now =
      let mark := fingerprint (c.fresh.name c.fresh.drawn) id e
      let recent := c.sent.isRecent mark now c.ttl
      (!recent, c.recorded now (if recent then [] else [mark]) 1) := by
  unfold shouldSend TimestampMap.check
  dsimp only [Supply.draw]
  cases c.sent.isRecent (fingerprint (c.fresh.name c.fresh.drawn) id e) now c.ttl <;> rfl

/-- Entering a fingerprint does not make another one recent. -/
theorem due_recorded {marks : List String} {n : Nat} {ms : List Marked}
    (h : ∀ m ∈ ms, ¬ m.mark ∈ marks) : (c.recorded now marks n).due now ms = c.due now ms := by
  refine List.filter_congr fun m hm => ?_
  rw [recorded, TimestampMap.isRecent_enter, if_neg (h m hm)]

theorem due_cons {m : Marked} {ms : List Marked} : c.due now (m :: ms) =
    if c.sent.isRecent m.mark now c.ttl then c.due now ms else m :: c.due now ms := by
  unfold due
  rw [List.filter_cons]
  cases c.sent.isRecent m.mark now c.ttl <;> rfl

theorem copies_cons_none {s : Subscription} {rest : List Subscription} (h : copy s = none) :
    copies copy (s :: rest) = copies copy rest :=
  List.filterMap_cons_none (by rw [h]; rfl)

theorem copies_cons_some {s : Subscription} {rest : List Subscription} {e : Event}
    (h : copy s = some e) : copies copy (s :: rest) = ⟨s, e⟩ :: copies copy rest :=
  List.filterMap_cons_some (by rw [h]; rfl)

theorem pushes_cons_none {s : Subscription} {rest : List Subscription} (h : copy s = none) :
    c.pushes now copy (s :: rest) = c.pushes now copy rest := by
  rw [pushes, h]

theorem pushes_cons_some {s : Subscription} {rest : List Subscription} {e : Event}
    (h : copy s = some e) :
    c.pushes now copy (s :: rest) =
      let mark := fingerprint (c.fresh.name c.fresh.drawn) s.id e
      if c.sent.isRecent mark now c.ttl then (c.recorded now [] 1).pushes now copy rest
      else
        let later := (c.recorded now [mark] 1).pushes now copy rest
        (⟨s, e⟩ :: later.1, later.2) := by
  rw [pushes, h]
  dsimp only
  rw [shouldSend_eq]
  dsimp only
  generalize fingerprint (c.fresh.name c.fresh.drawn) s.id e = mark
  by_cases hrecent : c.sent.isRecent mark now c.ttl = true
  · simp only [hrecent, Bool.not_true, Bool.false_eq_true, if_true, if_false]
  · rw [Bool.not_eq_true] at hrecent
    simp only [hrecent, Bool.not_false, Bool.false_eq_true, if_true, if_false]

/-- Distinct candidates are checked against the record before the first of them. -/
theorem pushes_eq {ss : List Subscription}
    (hdistinct : ((marked c.fresh (copies copy ss)).map Marked.mark).Nodup) :
    c.pushes now copy ss =
      let pushed := c.due now (marked c.fresh (copies copy ss))
      (pushed.map Marked.outgoing,
        c.recorded now (pushed.map Marked.mark) (copies copy ss).length) := by
  induction ss generalizing c with
  | nil => rfl
  | cons s rest ih =>
    cases hcopy : copy s with
    | none =>
      rw [copies_cons_none hcopy] at hdistinct ⊢
      rw [pushes_cons_none hcopy]
      exact ih hdistinct
    | some e =>
      rw [copies_cons_some hcopy, marked_cons] at hdistinct ⊢
      rw [pushes_cons_some hcopy, due_cons]
      generalize fingerprint (c.fresh.name c.fresh.drawn) s.id e = mark at hdistinct ⊢
      generalize hrow : marked { c.fresh with drawn := c.fresh.drawn + 1 } (copies copy rest) = row
        at hdistinct ⊢
      rw [List.map_cons, List.nodup_cons] at hdistinct
      obtain ⟨hout, hrest⟩ := hdistinct
      -- whatever is entered for the first copy says nothing of the later ones
      have hlater : ∀ marks, marks ⊆ [mark] →
          (c.recorded now marks 1).pushes now copy rest =
            ((c.due now row).map Marked.outgoing,
              c.recorded now (marks ++ (c.due now row).map Marked.mark)
                ((copies copy rest).length + 1)) := by
        intro marks hsub
        have hothers : ∀ m ∈ row, ¬ m.mark ∈ marks := by
          intro m hm hin
          have hone : m.mark = mark := List.mem_singleton.mp (hsub hin)
          exact hout (List.mem_map.mpr ⟨m, hm, hone⟩)
        have hnext := ih (c := c.recorded now marks 1) (by rwa [fresh_recorded, hrow])
        rw [fresh_recorded, hrow] at hnext
        rw [hnext, due_recorded hothers]
        dsimp only
        rw [recorded_recorded, Nat.add_comm 1]
      dsimp only
      split
      · rw [hlater [] (List.nil_subset _), List.nil_append, List.length_cons]
      · rw [hlater _ (List.Subset.refl _), List.map_cons, List.map_cons, List.length_cons,
          List.singleton_append]

/-! ## Distinct fingerprints -/

theorem mem_marked {fresh : Supply} {os : List Outgoing} {m : Marked} (h : m ∈ marked fresh os) :
    m.outgoing ∈ os ∧ ∃ i, fresh.drawn ≤ i ∧
      m.mark = fingerprint (fresh.name i) m.outgoing.subscription.id m.outgoing.event := by
  obtain ⟨i, hi, rfl⟩ := List.mem_mapIdx.mp h
  exact ⟨List.getElem_mem hi, fresh.drawn + i, Nat.le_add_right _ _, rfl⟩

theorem mem_copies {ss : List Subscription} {o : Outgoing} :
    o ∈ copies copy ss ↔ o.subscription ∈ ss ∧ copy o.subscription = some o.event := by
  unfold copies
  rw [List.mem_filterMap]
  constructor
  · intro hmem
    obtain ⟨s, hs, ho⟩ := hmem
    obtain ⟨e, he, rfl⟩ := Option.map_eq_some_iff.mp ho
    exact ⟨hs, he⟩
  · intro hkept
    obtain ⟨hs, he⟩ := hkept
    exact ⟨o.subscription, hs, by rw [he]; rfl⟩

/-- What is pushed is among the copies. -/
theorem mem_copies_of_pushes {ss : List Subscription} {o : Outgoing}
    (h : o ∈ (c.pushes now copy ss).1) : o ∈ copies copy ss := by
  induction ss generalizing c with
  | nil => exact h
  | cons s rest ih =>
    cases hcopy : copy s with
    | none =>
      rw [pushes_cons_none hcopy] at h
      rw [copies_cons_none hcopy]
      exact ih h
    | some e =>
      rw [pushes_cons_some hcopy] at h
      rw [copies_cons_some hcopy, List.mem_cons]
      dsimp only at h
      split at h
      · exact .inr (ih h)
      · exact (List.mem_cons.mp h).imp_right ih

theorem copies_sublist {ss : List Subscription} :
    ((copies copy ss).map Outgoing.subscription).Sublist ss := by
  induction ss with
  | nil => exact List.Sublist.slnil
  | cons s rest ih =>
    cases hcopy : copy s with
    | none =>
      rw [copies_cons_none hcopy]
      exact ih.cons s
    | some e =>
      rw [copies_cons_some hcopy, List.map_cons]
      exact ih.cons_cons s

/-- The copies keep the order of their subscriptions. -/
theorem ids_marked {fresh : Supply} {ss : List Subscription}
    (hids : (ss.map Subscription.id).Pairwise (· < ·)) :
    (marked fresh (copies copy ss)).Pairwise
      fun a b => a.outgoing.subscription.id < b.outgoing.subscription.id := by
  have hsub : (((copies copy ss).map Outgoing.subscription).map Subscription.id).Pairwise (· < ·) :=
    hids.sublist (copies_sublist.map Subscription.id)
  rw [← @map_outgoing_marked fresh (copies copy ss)] at hsub
  simpa only [List.pairwise_map] using hsub

theorem marks_nodup {fresh : Supply} {ss : List Subscription}
    (hids : (ss.map Subscription.id).Pairwise (· < ·)) (hplain : ∀ s ∈ ss, PlainId s.id) :
    ((marked fresh (copies copy ss)).map Marked.mark).Nodup := by
  have hid : ∀ m ∈ marked fresh (copies copy ss), PlainId m.outgoing.subscription.id :=
    fun m hm => hplain _ (mem_copies.mp (mem_marked hm).1).1
  rw [List.Nodup, List.pairwise_map]
  refine (ids_marked hids).imp_of_mem fun {a b} ha hb hlt hmark => ?_
  obtain ⟨-, i, -, hi⟩ := mem_marked ha
  obtain ⟨-, j, -, hj⟩ := mem_marked hb
  rw [hi, hj] at hmark
  have hsame := id_eq_of_fingerprint_eq (hid a ha) (hid b hb) hmark
  rw [hsame] at hlt
  exact String.lt_irrefl _ hlt

end DedupCache

/-! ## Events that are not routed -/

namespace Event

/-- The event does not say what it is about: a situation has no number or a blank one, a journey
names neither line nor vehicle nor date. -/
def Malformed : Event → Prop
  | situation s => ∀ n, s.number = some n → Text.isBlankText n = true
  | journey u => u.lineRef = none ∧ u.vehicleRef = none ∧ u.datedJourneyRef = none

/-- Any producer is accepted, or one with the name of the event's in whatever case. -/
def Accepted (accepted : List String) (e : Event) : Prop :=
  accepted = [] ∨
    ∃ p, e.producer = some p ∧ ∃ a ∈ accepted, Text.sameIgnoringAsciiCase a p = true

theorem check_malformed {e : Event} (h : e.Malformed) : ∃ err, e.check = .error err := by
  cases e with
  | situation s =>
    refine ⟨.missingSituationNumber, if_pos ?_⟩
    exact (Option.all_eq_true _ _).mpr h
  | journey u =>
    obtain ⟨hline, hvehicle, hdated⟩ := h
    refine ⟨.missingJourneyIdentity, if_pos ?_⟩
    rw [hline, hvehicle, hdated]
    rfl

theorem check_wellFormed {e : Event} (h : ¬ e.Malformed) : e.check = .ok () := by
  cases e with
  | situation s =>
    refine if_neg fun hblank => h ?_
    exact (Option.all_eq_true _ _).mp hblank
  | journey u =>
    refine if_neg fun hnone => h ?_
    simpa only [Malformed, Bool.and_eq_true, Option.isNone_iff_eq_none, and_assoc] using hnone

theorem isAccepted_iff {accepted : List String} {e : Event} :
    e.isAccepted accepted = true ↔ e.Accepted accepted := by
  simp only [isAccepted, Accepted, Bool.or_eq_true, List.isEmpty_iff, Option.any_eq_true,
    List.any_eq_true]

end Event

/-! ## Routing -/

/-- Subscriptions are added under identifiers without underscores. -/
def StoreOp.Plain : StoreOp → Prop
  | add id _ => PlainId id
  | _ => True

instance (op : StoreOp) : Decidable op.Plain :=
  match op with
  | .add id _ => inferInstanceAs (Decidable (PlainId id))
  | .update _ | .modify _ _ | .remove _ | .reload => inferInstanceAs (Decidable True)

/-- A store that is consistent and in which no identifier has an underscore. -/
structure MemoryStore.Named (m : MemoryStore) : Prop where
  consistent : m.Consistent
  plain : ∀ id s, m.subscriptions.get? id = some s → PlainId id

namespace MemoryStore.Named

variable {m : MemoryStore}

theorem empty : Named .empty where
  consistent := .empty
  plain id s hget := by
    rw [MemoryStore.empty, Table.get?_emptyCollection] at hget
    cases hget

theorem run (h : m.Named) (ops : List StoreOp) (hfresh : StoreOp.Fresh m ops)
    (hplain : ∀ op ∈ ops, op.Plain) : (StoreOp.run m ops).Named where
  consistent := h.consistent.run ops hfresh
  plain := h.consistent.run_ids ops hfresh (fun _ _ hmem => hplain _ hmem) h.plain

end MemoryStore.Named

namespace Hub

variable {τ : Type} {h : Hub MemoryStore τ} {e : Event} {now : Timestamp}

/-- The copies of an event for the subscriptions that it concerns, as far as something is left of
them, with the fingerprints under which they are looked up. -/
def candidates (h : Hub MemoryStore τ) (e : Event) : List Marked :=
  DedupCache.marked h.dedup.fresh
    (DedupCache.copies (h.matcher.copyFor e) (h.matcher.select e))

theorem select_ascending (hn : h.store.Named) :
    ((h.matcher.select e).map Subscription.id).Pairwise (· < ·) :=
  Matcher.select_ascending hn.consistent.answersFrom hn.consistent.own e

/-- The candidates have ascending identifiers. -/
theorem ids_candidates (hn : h.store.Named) : (h.candidates e).Pairwise
    fun a b => a.outgoing.subscription.id < b.outgoing.subscription.id :=
  DedupCache.ids_marked (select_ascending hn)

theorem marks_nodup (hn : h.store.Named) : ((h.candidates e).map Marked.mark).Nodup := by
  refine DedupCache.marks_nodup (select_ascending hn) fun s hs => ?_
  exact hn.plain s.id s
    (Matcher.stored_select (m := h.matcher) hn.consistent.answersFrom hn.consistent.own e s hs)

theorem route_refused {err : RouteError} (herr : e.check = .error err) :
    h.route e now = .error err := by
  rw [Hub.route, TransitPush.route, herr]

theorem route_unaccepted (hm : ¬ e.Malformed) (ha : ¬ e.Accepted h.accepted) :
    h.route e now = .ok ([], h) := by
  have hnot : ¬ e.isAccepted h.accepted = true := fun hacc => ha (Event.isAccepted_iff.mp hacc)
  rw [Hub.route, TransitPush.route, Event.check_wellFormed hm]
  simp only [if_neg hnot]

/-- A push is the copy of the event for a subscription that the event concerns. -/
theorem copy_of_route {pushes : List Outgoing} {h' : Hub MemoryStore τ}
    (hroute : h.route e now = .ok (pushes, h')) {o : Outgoing} (ho : o ∈ pushes) :
    o.subscription ∈ h.matcher.select e ∧ h.matcher.copyFor e o.subscription = some o.event := by
  unfold route TransitPush.route at hroute
  cases hcheck : e.check with
  | error err =>
    rw [hcheck] at hroute
    cases hroute
  | ok =>
    rw [hcheck] at hroute
    cases haccepted : e.isAccepted h.accepted with
    | false =>
      simp only [haccepted] at hroute
      cases hroute
      exact absurd ho List.not_mem_nil
    | true =>
      simp only [haccepted] at hroute
      cases hroute
      exact DedupCache.mem_copies.mp (DedupCache.mem_copies_of_pushes ho)

/-- The candidates that are due are pushed and entered in the record. -/
theorem route_eq (hn : h.store.Named) (hm : ¬ e.Malformed) (ha : e.Accepted h.accepted) :
    h.route e now =
      let pushed := h.dedup.due now (h.candidates e)
      .ok (pushed.map Marked.outgoing,
        { h with dedup := h.dedup.recorded now (pushed.map Marked.mark) (h.candidates e).length }) := by
  have hlength : (h.candidates e).length =
      (DedupCache.copies (h.matcher.copyFor e) (h.matcher.select e)).length := List.length_mapIdx
  rw [Hub.route, TransitPush.route, Event.check_wellFormed hm]
  simp only [if_pos (Event.isAccepted_iff.mpr ha)]
  rw [DedupCache.pushes_eq (marks_nodup hn), hlength]
  rfl

theorem mem_due {c : DedupCache} {ms : List Marked} {m : Marked} : m ∈ c.due now ms ↔
    m ∈ ms ∧ ∀ at_, c.sent.get? m.mark = some at_ → ¬ now.since at_ < c.ttl := by
  rw [DedupCache.due, List.mem_filter, Bool.not_eq_true', TimestampMap.isRecent_eq_false]

/-- **Routing.** A hub over a store that a run leads to, whose identifiers have no underscore, refuses
an event that does not say what it is about, and passes one of another producer over, with nothing
recorded. Any other event is pushed to those subscriptions that it concerns, by ascending identifier,
of whose copy something is left and for whose fingerprint the record before the event has no time less
than `ttl` ago. Their fingerprints then have the time of the event in the record, and nothing else
changes. -/
theorem route_exact (h : Hub MemoryStore τ) (ops : List StoreOp)
    (hstore : h.store = StoreOp.run MemoryStore.empty ops)
    (hfresh : StoreOp.Fresh MemoryStore.empty ops) (hplain : ∀ op ∈ ops, op.Plain)
    (e : Event) (now : Timestamp) :
    (e.Malformed → ∃ err, h.route e now = .error err) ∧
    (¬ e.Malformed → ¬ e.Accepted h.accepted → h.route e now = .ok ([], h)) ∧
    (¬ e.Malformed → e.Accepted h.accepted →
      ∃ (pushed : List Marked) (sent : TimestampMap) (fresh : Supply),
        h.route e now =
          .ok (pushed.map Marked.outgoing, { h with dedup := { h.dedup with sent, fresh } }) ∧
        (pushed.map fun m => m.outgoing.subscription.id).Pairwise (· < ·) ∧
        (∀ m, m ∈ pushed ↔ m ∈ h.candidates e ∧
          ∀ at_, h.dedup.sent.get? m.mark = some at_ → ¬ now.since at_ < h.dedup.ttl) ∧
        ∀ key, sent.get? key =
          if key ∈ pushed.map Marked.mark then some now else h.dedup.sent.get? key) ∧
    (∀ o, o ∈ (h.candidates e).map Marked.outgoing ↔
      o.subscription ∈ h.matcher.select e ∧
        h.matcher.copyFor e o.subscription = some o.event) ∧
    ∀ m ∈ h.candidates e, ∃ i, h.dedup.fresh.drawn ≤ i ∧
      m.mark = fingerprint (h.dedup.fresh.name i) m.outgoing.subscription.id m.outgoing.event := by
  have hn : h.store.Named := by
    rw [hstore]
    exact MemoryStore.Named.empty.run ops hfresh hplain
  refine ⟨fun hm => ?_, route_unaccepted, fun hm ha => ?_, fun o => ?_, fun m hmem => ?_⟩
  · obtain ⟨err, herr⟩ := Event.check_malformed hm
    exact ⟨err, route_refused herr⟩
  · refine ⟨_, _, _, route_eq hn hm ha, ?_, fun m => mem_due, fun key => TimestampMap.get?_enter⟩
    exact List.pairwise_map.mpr ((ids_candidates hn).sublist List.filter_sublist)
  · rw [candidates, DedupCache.map_outgoing_marked, DedupCache.mem_copies]
  · exact (DedupCache.mem_marked hmem).2

/-- The four subscribers, of whom the second has been told of the closed quay. Nothing of it is left
for the first, as stop points are not passed on. -/
def oneTold : Hub MemoryStore PlayedTransport where
  courier := ⟨⟨StoreOp.run .empty fourSubscribers, ∅, ⟨toString, 4⟩, 3⟩, .empty, ∅, []⟩
  topology := Topology.empty.withStation "NSR:StopPlace:1" ["NSR:Quay:11"]
  routes := ∅
  dedup := ⟨DedupCache.defaultTtl.toDelta, (∅ : TimestampMap).insert "2_1_1" .epoch, ⟨toString, 0⟩⟩
  accepted := ["nsb"]
  planner := .ofInterval Planner.defaultCheckInterval

theorem route_exact_oneTold :
    let e := Event.situation closedQuay
    let hourLater : Timestamp := ⟨3600, 0, by decide⟩
    StoreOp.Fresh MemoryStore.empty fourSubscribers ∧ (∀ op ∈ fourSubscribers, op.Plain) ∧
    ¬ e.Malformed ∧ e.Accepted oneTold.accepted ∧
    (oneTold.matcher.select e).map Subscription.id = ["1", "2", "3"] ∧
    (oneTold.candidates e).map Marked.mark = ["2_1_1", "3_1_1"] ∧
    ∃ pushed sent fresh,
      oneTold.route e hourLater =
        .ok (pushed, { oneTold with dedup := { oneTold.dedup with sent, fresh } }) ∧
      (pushed.map fun o => o.subscription.id) = ["3"] := by
  intro e hourLater
  have hfresh : StoreOp.Fresh MemoryStore.empty fourSubscribers := by decide
  have hplain : ∀ op ∈ fourSubscribers, op.Plain := by decide
  have hm : ¬ e.Malformed := fun h => absurd (h "1" rfl) (by decide)
  have ha : e.Accepted oneTold.accepted := Event.isAccepted_iff.mp (by decide)
  obtain ⟨-, -, hrouted, -⟩ := route_exact oneTold fourSubscribers rfl hfresh hplain e hourLater
  obtain ⟨pushed, sent, fresh, hroute, -⟩ := hrouted hm ha
  have hids : (oneTold.route e hourLater).map (fun r => r.1.map fun o => o.subscription.id) =
      .ok ["3"] := by decide
  rw [hroute] at hids
  exact ⟨hfresh, hplain, hm, ha, by decide, by decide, _, sent, fresh, hroute, Except.ok.inj hids⟩

end Hub
end TransitPush
