import TransitPush.Proofs.Routing.HubRun
import TransitPush.Proofs.Routing.Identification
import TransitPush.Proofs.Time.Clock
/-!
# Calls elsewhere

Who names stops gets the calls at these stops and learns nothing of the others. So two updates of a
journey that differ elsewhere make one copy for such a subscriber, with one fingerprint, and the later
one is a repetition of the earlier.

* `JourneyUpdate.AgreesAt`: two updates say the same but for calls elsewhere.
* `JourneyUpdate.trimmed_eq_iff`: they do exactly if the subscriber's copies are the same.
* `DedupCache.KeptAt`: what lasts in the record while copies are gone through.
* `DedupCache.Withholds`: a fingerprint that the record keeps from being pushed at a time to come.
  Events and evictions until then leave it so: `DedupCache.Withholds.keptAt`,
  `DedupCache.Withholds.evict`, `HubOp.withholds_run`.
* `Hub.elsewhere_unseen`: what changes elsewhere causes no push.
-/
namespace TransitPush

/-! ## Copies of journeys -/

namespace JourneyUpdate

def withoutCalls (u : JourneyUpdate) : JourneyUpdate :=
  { u with complete := none, recorded := [], estimated := [] }

/-- The calls at some stops. A call without a stop is at none. -/
def callsAt (stops : RefSet) (calls : List Call) : List Call :=
  calls.filter fun c => c.stopRef.any fun ref => ref ∈ stops

/-- Two updates say the same, except for calls elsewhere and for whether all calls are there. -/
structure AgreesAt (stops : RefSet) (u v : JourneyUpdate) : Prop where
  rest : u.withoutCalls = v.withoutCalls
  recorded : callsAt stops u.recorded = callsAt stops v.recorded
  estimated : callsAt stops u.estimated = callsAt stops v.estimated

variable {s : Subscription} {stops : RefSet} {u v : JourneyUpdate} {calls : List Call} {c : Call}

theorem mem_callsAt : c ∈ callsAt stops calls ↔
    c ∈ calls ∧ ∃ ref, c.stopRef = some ref ∧ ref ∈ stops := by
  simp only [callsAt, List.mem_filter, Option.any_eq_true, decide_eq_true_eq]

theorem filter_isAt : calls.filter (Call.isAt fun ref => ref ∈ stops) = callsAt stops calls := by
  refine List.filter_congr fun c _ => ?_
  unfold Call.isAt
  cases c.stopRef <;> rfl

theorem trimmed_eq (hs : s.hasNoStops = false) : u.trimmed s stops =
    { u.withoutCalls with
      complete := some false
      recorded := callsAt stops u.recorded
      estimated := callsAt stops u.estimated } := by
  unfold trimmed retainCalls
  rw [hs, filter_isAt, filter_isAt]
  rfl

theorem trimmed_eq_iff (hs : s.hasNoStops = false) :
    u.trimmed s stops = v.trimmed s stops ↔ u.AgreesAt stops v := by
  rw [trimmed_eq hs, trimmed_eq hs]
  constructor
  · intro h
    have hrest := congrArg withoutCalls h
    exact ⟨hrest, congrArg JourneyUpdate.recorded h, congrArg JourneyUpdate.estimated h⟩
  · rintro ⟨hrest, hrecorded, hestimated⟩
    rw [hrest, hrecorded, hestimated]

/-- Whether an update is refused or passed over does not depend on its calls. -/
theorem AgreesAt.admitted (h : u.AgreesAt stops v) (accepted : List String) :
    (Event.journey u).check = (Event.journey v).check ∧
      (Event.journey u).isAccepted accepted = (Event.journey v).isAccepted accepted := by
  have hcheck := congrArg (fun w => (Event.journey w).check) h.rest
  have haccepted := congrArg (fun w => (Event.journey w).isAccepted accepted) h.rest
  exact ⟨hcheck, haccepted⟩

end JourneyUpdate

/-! ## What the record withholds -/

namespace DedupCache

variable {c : DedupCache} {key : String} {now t : Timestamp} {copy : Subscription → Option Event}
  {ss : List Subscription} {P : DedupCache → Prop}

/-- A property of the record that lasts when fingerprints are entered at a time of which none is
recent then. -/
def KeptAt (now : Timestamp) (P : DedupCache → Prop) : Prop :=
  ∀ (c : DedupCache) (marks : List String) (n : Nat), P c →
    (∀ m ∈ marks, c.sent.isRecent m now c.ttl = false) → P (c.recorded now marks n)

/-- Nothing else happens to the record while copies are gone through. -/
theorem KeptAt.pushes (hP : KeptAt now P) (h : P c) : P (c.pushes now copy ss).2 := by
  induction ss generalizing c with
  | nil => exact h
  | cons s rest ih =>
    cases hcopy : copy s with
    | none =>
      rw [pushes_cons_none hcopy]
      exact ih h
    | some e =>
      rw [pushes_cons_some hcopy]
      dsimp only
      split
      · exact ih (hP c [] 1 h (List.forall_mem_nil _))
      · rename_i hnew
        rw [Bool.not_eq_true] at hnew
        exact ih (hP c _ 1 h (List.forall_mem_singleton.mpr hnew))

/-- The turn of a push: its fingerprint is not recent then and is entered, and the copies behind it
follow. -/
theorem turn_of_pushed {o : Outgoing} (ho : o ∈ (c.pushes now copy ss).1) :
    ∃ name d rest, (∀ P, KeptAt now P → P c → P d) ∧
      let mark := fingerprint name o.subscription.id o.event
      d.sent.isRecent mark now d.ttl = false ∧
      (c.pushes now copy ss).2 = ((d.recorded now [mark] 1).pushes now copy rest).2 := by
  induction ss generalizing c with
  | nil => exact absurd ho List.not_mem_nil
  | cons s rest ih =>
    cases hcopy : copy s with
    | none =>
      rw [pushes_cons_none hcopy] at ho ⊢
      exact ih ho
    | some e =>
      rw [pushes_cons_some hcopy] at ho ⊢
      dsimp only at ho ⊢
      split at ho
      · rename_i hrecent
        rw [if_pos hrecent]
        obtain ⟨name, d, later, hkept, hturn⟩ := ih ho
        exact ⟨name, d, later, fun P hP h => hkept P hP (hP c [] 1 h (List.forall_mem_nil _)), hturn⟩
      · rename_i hnew
        rw [if_neg hnew]
        rw [Bool.not_eq_true] at hnew
        rcases List.mem_cons.mp ho with rfl | hlater
        · exact ⟨_, c, rest, fun P _ h => h, hnew, rfl⟩
        · obtain ⟨name, d, later, hkept, hturn⟩ := ih hlater
          exact ⟨name, d, later,
            fun P hP h => hkept P hP (hP c _ 1 h (List.forall_mem_singleton.mpr hnew)), hturn⟩

theorem keptAt_ttl (ttl : TimeDelta) : KeptAt now fun c => c.ttl = ttl :=
  fun _ _ _ h _ => h

theorem keptAt_entry (key : String) : KeptAt now fun c => c.sent.get? key = some now := by
  intro c marks n h _
  rw [recorded, TimestampMap.get?_enter, h, ite_self]

theorem keptAt_recent (key : String) :
    KeptAt now fun c => c.sent.isRecent key now c.ttl = true := by
  intro c marks n h hmarks
  have hkey : ¬ key ∈ marks := fun hmem => by
    rw [hmarks key hmem] at h
    cases h
  rw [recorded, TimestampMap.isRecent_enter, if_neg hkey]
  exact h

/-- What is pushed has the time of the push in the record. -/
theorem entry_of_pushed {o : Outgoing} (ho : o ∈ (c.pushes now copy ss).1) :
    ∃ name, (c.pushes now copy ss).2.sent.get? (fingerprint name o.subscription.id o.event) =
      some now := by
  obtain ⟨name, d, rest, -, -, hrest⟩ := turn_of_pushed ho
  refine ⟨name, ?_⟩
  rw [hrest]
  refine (keptAt_entry _).pushes ?_
  rw [recorded, TimestampMap.get?_enter, if_pos List.mem_cons_self]

/-- What is pushed has no fingerprint that is recent. -/
theorem ne_of_pushed (hrecent : c.sent.isRecent key now c.ttl = true) {o : Outgoing}
    (ho : o ∈ (c.pushes now copy ss).1) :
    ∃ name, fingerprint name o.subscription.id o.event ≠ key := by
  obtain ⟨name, d, rest, hkept, hnew, -⟩ := turn_of_pushed ho
  refine ⟨name, fun hsame => ?_⟩
  have hold := hkept _ (keptAt_recent key) hrecent
  rw [← hsame, hnew] at hold
  cases hold

/-- Nothing with the fingerprint is pushed at a time to come: the record has a time for it that lies
less than `ttl` before. -/
structure Withholds (c : DedupCache) (key : String) (t : Timestamp) : Prop where
  ttl_nonneg : (0 : Int) ≤ c.ttl
  recent : ∃ at_, c.sent.get? key = some at_ ∧ at_.isLeap = false ∧ t.since at_ < c.ttl

namespace Withholds

theorem isRecent (hw : c.Withholds key t) : c.sent.isRecent key t c.ttl = true := by
  obtain ⟨at_, hget, -, hsince⟩ := hw.recent
  exact TimestampMap.isRecent_iff.mpr ⟨at_, hget, hsince⟩

/-- A fingerprint is entered again only when it is no longer recent, and then for longer. -/
theorem keptAt (ht : t.isLeap = false) (hnow : now.isLeap = false) :
    KeptAt now fun c => c.Withholds key t := by
  intro c marks n hw hmarks
  obtain ⟨at_, hget, hleap, hsince⟩ := hw.recent
  refine ⟨hw.ttl_nonneg, ?_⟩
  simp only [DedupCache.recorded, TimestampMap.get?_enter]
  by_cases hkey : key ∈ marks
  · have hover := TimestampMap.isRecent_eq_false.mp (hmarks key hkey) at_ hget
    exact ⟨now, if_pos hkey, hnow,
      Timestamp.since_lt_of_over hleap hnow ht hw.ttl_nonneg hover hsince⟩
  · exact ⟨at_, (if_neg hkey).trans hget, hleap, hsince⟩

/-- An eviction before the time drops nothing that is recent then. -/
theorem evict (hw : c.Withholds key t) (ht : t.isLeap = false) (hnow : now.isLeap = false)
    (hle : now ≤ t) : (c.evictExpired now).2.Withholds key t := by
  obtain ⟨at_, hget, hleap, hsince⟩ := hw.recent
  unfold evictExpired
  split
  · exact hw
  · rename_i cutoff hcutoff
    refine ⟨hw.ttl_nonneg, at_, ?_, hleap, hsince⟩
    rw [TimestampMap.get?_retainFrom]
    refine Option.filter_eq_some_iff.mpr ⟨hget, decide_eq_true ?_⟩
    by_contra hold
    exact Timestamp.outside_of_cutoff hnow hleap ht hle hcutoff hold hsince

end Withholds
end DedupCache

/-! ## Runs -/

namespace Hub

variable {τ : Type} {h h' : Hub MemoryStore τ} {e : Event} {now : Timestamp} {pushes : List Outgoing}
  {o : Outgoing}

/-- The pushes that an event leads to, and the record after them, if the event is not refused. -/
def outcome (h : Hub MemoryStore τ) (e : Event) (now : Timestamp) : List Outgoing × DedupCache :=
  if e.isAccepted h.accepted then h.dedup.pushes now (h.matcher.copyFor e) (h.matcher.select e)
  else ([], h.dedup)

theorem route_outcome (hcheck : e.check = .ok ()) : h.route e now =
    .ok ((h.outcome e now).1, { h with dedup := (h.outcome e now).2 }) := by
  unfold route TransitPush.route outcome
  rw [hcheck]
  cases e.isAccepted h.accepted <;> rfl

theorem outcome_of_route (hroute : h.route e now = .ok (pushes, h')) : e.check = .ok () ∧
    (h.outcome e now).1 = pushes ∧ h' = { h with dedup := (h.outcome e now).2 } := by
  cases hcheck : e.check with
  | error err =>
    rw [route_refused hcheck] at hroute
    cases hroute
  | ok u =>
    rw [route_outcome hcheck] at hroute
    cases hroute
    exact ⟨rfl, rfl, rfl⟩

theorem kept_outcome {P : DedupCache → Prop} (hP : DedupCache.KeptAt now P) (hdedup : P h.dedup) :
    P (h.outcome e now).2 := by
  unfold outcome
  split
  · exact hP.pushes hdedup
  · exact hdedup

theorem entry_of_route (hroute : h.route e now = .ok (pushes, h')) (ho : o ∈ pushes) :
    ∃ name, h'.dedup.sent.get? (fingerprint name o.subscription.id o.event) = some now := by
  obtain ⟨-, rfl, rfl⟩ := outcome_of_route hroute
  unfold outcome at ho ⊢
  split at ho
  · rename_i haccepted
    rw [if_pos haccepted]
    exact DedupCache.entry_of_pushed ho
  · exact absurd ho List.not_mem_nil

theorem ne_of_route {key : String}
    (hrecent : h.dedup.sent.isRecent key now h.dedup.ttl = true)
    (hroute : h.route e now = .ok (pushes, h')) (ho : o ∈ pushes) :
    ∃ name, fingerprint name o.subscription.id o.event ≠ key := by
  obtain ⟨-, rfl, -⟩ := outcome_of_route hroute
  unfold outcome at ho
  split at ho
  · exact DedupCache.ne_of_pushed hrecent ho
  · exact absurd ho List.not_mem_nil

end Hub

namespace HubOp

variable {τ : Type} {h : Hub MemoryStore τ} {key : String} {t : Timestamp} {ops : List HubOp}

/-- Routing changes nothing but the record. -/
theorem after_route (h : Hub MemoryStore τ) (e : Event) (now : Timestamp) :
    ∃ dedup, ((route e now).apply h).2 = { h with dedup } ∧
      (dedup = h.dedup ∨ dedup = (h.outcome e now).2) := by
  rw [apply]
  cases hcheck : e.check with
  | error err =>
    rw [Hub.route_refused hcheck]
    exact ⟨h.dedup, rfl, .inl rfl⟩
  | ok u =>
    rw [Hub.route_outcome hcheck]
    exact ⟨_, rfl, .inr rfl⟩

/-- Where stops are grouped stays the same. -/
theorem topology_run : (run h ops).topology = h.topology := by
  induction ops generalizing h with
  | nil => rfl
  | cons op ops ih =>
    refine Eq.trans ih ?_
    cases op with
    | route e now =>
      obtain ⟨dedup, hafter, -⟩ := after_route h e now
      rw [hafter]
    | evict _ | store _ | live _ => rfl

theorem withholds_apply (hw : h.dedup.Withholds key t) (ht : t.isLeap = false) (op : HubOp)
    (hleap : ∀ now, op.time? = some now → now.isLeap = false)
    (hevict : ∀ now, op = evict now → now ≤ t) : (op.apply h).2.dedup.Withholds key t := by
  cases op with
  | route e now =>
    obtain ⟨dedup, hafter, hsame | houtcome⟩ := after_route h e now
    · rw [hafter, hsame]
      exact hw
    · rw [hafter, houtcome]
      exact Hub.kept_outcome (DedupCache.Withholds.keptAt ht (hleap now rfl)) hw
  | evict now => exact hw.evict ht (hleap now rfl) (hevict now rfl)
  | store _ | live _ => exact hw

theorem withholds_run (hw : h.dedup.Withholds key t) (ht : t.isLeap = false)
    (hleap : ∀ now ∈ times ops, now.isLeap = false) (hevict : ∀ now, evict now ∈ ops → now ≤ t) :
    (run h ops).dedup.Withholds key t := by
  induction ops generalizing h with
  | nil => exact hw
  | cons op ops ih =>
    refine ih (withholds_apply hw ht op (fun now hnow => hleap now ?_) fun now hop => hevict now ?_)
      (fun now hnow => hleap now ?_) fun now hop => hevict now (List.mem_cons_of_mem _ hop)
    · exact List.mem_filterMap.mpr ⟨op, List.mem_cons_self, hnow⟩
    · rw [hop]
      exact List.mem_cons_self
    · obtain ⟨op', hop', htime⟩ := List.mem_filterMap.mp hnow
      exact List.mem_filterMap.mpr ⟨op', List.mem_cons_of_mem _ hop', htime⟩

/-- Without an event or an eviction the record stays as it is. -/
theorem dedup_run_untimed (huntimed : times ops = []) : (run h ops).dedup = h.dedup := by
  induction ops generalizing h with
  | nil => rfl
  | cons op ops ih =>
    cases op with
    | route _ _ | evict _ => cases huntimed
    | store _ | live _ => exact ih huntimed

/-- A time in the record is recent for as long as it would be if nothing happened until then. -/
theorem recent_run {at_ : Timestamp} (hget : h.dedup.sent.get? key = some at_)
    (httl : (0 : Int) ≤ h.dedup.ttl) (hsince : t.since at_ < h.dedup.ttl)
    (hleap : times ops ≠ [] → ∀ now ∈ at_ :: times ops ++ [t], now.isLeap = false)
    (hevict : ∀ now, evict now ∈ ops → now ≤ t) :
    (run h ops).dedup.sent.isRecent key t (run h ops).dedup.ttl = true := by
  by_cases huntimed : times ops = []
  · rw [dedup_run_untimed huntimed]
    exact TimestampMap.isRecent_iff.mpr ⟨at_, hget, hsince⟩
  · obtain ⟨hat, hlater⟩ := List.forall_mem_cons.mp (hleap huntimed)
    obtain ⟨hops, ht⟩ := List.forall_mem_append.mp hlater
    have hw : h.dedup.Withholds key t := ⟨httl, at_, hget, hat, hsince⟩
    exact (withholds_run hw (ht t List.mem_cons_self) hops hevict).isRecent

end HubOp

/-! ## Repetitions -/

namespace Hub

/-- The copies of updates that agree at the stops, for one subscriber or for another with the same
stops. -/
theorem copy_eq {τ : Type} {h g : Hub MemoryStore τ} (htopology : g.topology = h.topology)
    {s s' : Subscription} (hs : s.hasNoStops = false) (hfrom : s'.fromStops = s.fromStops)
    (hto : s'.toStops = s.toStops) {u v : JourneyUpdate}
    (hagrees : u.AgreesAt (h.topology.subscribedStops s) v) :
    g.matcher.copyFor (.journey v) s' = h.matcher.copyFor (.journey u) s := by
  have hs' : s'.hasNoStops = false := by rwa [Subscription.hasNoStops, hfrom, hto]
  have hstops : g.topology.subscribedStops s' = h.topology.subscribedStops s := by
    rw [htopology, Topology.subscribedStops, Subscription.stops, hfrom, hto]
    rfl
  show some (Event.journey (v.trimmed s' (g.topology.subscribedStops s'))) =
    some (Event.journey (u.trimmed s (h.topology.subscribedStops s)))
  rw [hstops, (JourneyUpdate.trimmed_eq_iff hs).mpr hagrees, JourneyUpdate.trimmed_eq hs,
    JourneyUpdate.trimmed_eq hs']

/-- **Calls elsewhere.** The copy of a journey for a subscriber with stops has calls at these stops
only, and the copies of two updates are the same exactly if the updates agree on everything but the
calls elsewhere and whether all calls are there. So after a push of which a payload can be made, an
update that agrees with the one pushed and is routed less than `ttl` later leads to no push to the
subscriber, whatever changes between, as long as its stops are the same. Other events and evictions
may come between as well, if no time is a leap second. -/
theorem elsewhere_unseen {τ : Type} (h : Hub MemoryStore τ) (ttl : Interval)
    (httl : h.dedup.ttl = ttl.toDelta) (s : Subscription) (hs : s.hasNoStops = false) :
    let stops := h.topology.subscribedStops s
    (∀ u : JourneyUpdate, ∀ c ∈ (u.trimmed s stops).recorded ++ (u.trimmed s stops).estimated,
      ∃ ref, c.stopRef = some ref ∧ ref ∈ stops) ∧
    (∀ u v : JourneyUpdate, u.trimmed s stops = v.trimmed s stops ↔ u.AgreesAt stops v) ∧
    ∀ u v t₁ t₂ pushes h' o between, h.route (.journey u) t₁ = .ok (pushes, h') → o ∈ pushes →
      o.subscription = s → (∃ payload, Event.format.toPayload o.event = .ok payload) →
      (HubOp.times between ≠ [] → ∀ t ∈ t₁ :: HubOp.times between ++ [t₂], t.isLeap = false) →
      (∀ t, .evict t ∈ between → t ≤ t₂) → t₂.since t₁ < ttl.toDelta → u.AgreesAt stops v →
      ∃ pushes' g', (HubOp.run h' between).route (.journey v) t₂ = .ok (pushes', g') ∧
        ∀ o' ∈ pushes', ¬ (o'.subscription.id = s.id ∧
          o'.subscription.fromStops = s.fromStops ∧ o'.subscription.toStops = s.toStops) := by
  intro stops
  refine ⟨fun u c hc => ?_, fun u v => JourneyUpdate.trimmed_eq_iff hs, ?_⟩
  · rw [JourneyUpdate.trimmed_eq hs, List.mem_append] at hc
    rcases hc with hc | hc <;> exact (JourneyUpdate.mem_callsAt.mp hc).2
  rintro u v t₁ t₂ pushes h' o between hroute ho rfl hpayload hleap hevict hsince hagrees
  obtain ⟨hcheck, -, hafter⟩ := outcome_of_route hroute
  have hcheck' : (Event.journey v).check = .ok () := (hagrees.admitted []).1.symm.trans hcheck
  have htopology : (HubOp.run h' between).topology = h.topology := by
    rw [HubOp.topology_run, hafter]
  have httl' : h'.dedup.ttl = ttl.toDelta := by
    rw [hafter]
    exact kept_outcome (DedupCache.keptAt_ttl _) httl
  obtain ⟨name, hentry⟩ := entry_of_route hroute ho
  have hrecent := HubOp.recent_run hentry (httl' ▸ ttl.toDelta_nonneg) (httl' ▸ hsince) hleap hevict
  have hroute' : (HubOp.run h' between).route (.journey v) t₂ = .ok _ := route_outcome hcheck'
  refine ⟨_, _, hroute', fun o' ho' hsame => ?_⟩
  obtain ⟨hid, hfrom, hto⟩ := hsame
  obtain ⟨name', hne⟩ := ne_of_route hrecent hroute' ho'
  obtain ⟨-, hcopy⟩ := copy_of_route hroute ho
  obtain ⟨-, hcopy'⟩ := copy_of_route hroute' ho'
  have hevent : o'.event = o.event := by
    rw [copy_eq htopology hs hfrom hto hagrees, hcopy] at hcopy'
    exact (Option.some.inj hcopy').symm
  have hjourney := Option.some.inj hcopy
  rw [← hjourney] at hpayload
  have hdefinite : o.event.Definite := hjourney ▸ Event.definite_journey.mpr hpayload
  rw [hid, hevent] at hne
  exact hne (hdefinite name' name o.subscription.id)

def wholeWay : Subscription :=
  { (Subscription.pushing "" "http://a").withStops "A" "D" with id := "i" }

/-- A hub with this subscriber, which remembers pushes for a second. -/
def forgetsInASecond : Hub MemoryStore PlayedTransport where
  courier := ⟨⟨StoreOp.run .empty [.add "i" wholeWay], ∅, ⟨toString, 1⟩, 3⟩, .empty, ∅, []⟩
  topology := .empty
  routes := ∅
  dedup := .empty (.ofSeconds 1) ⟨toString, 0⟩
  accepted := []
  planner := .ofInterval Planner.defaultCheckInterval

/-- The journey stops between, then at another stop and later, and it is said to be complete. Before
the second is over it still goes from the first stop to the last. -/
theorem elsewhere_unseen_anotherStop :
    let u := (((JourneyUpdate.dated "1" "j").withEstimated (.atStop "A")).withEstimated
      (.atStop "B")).withEstimated (.atStop "D")
    let v := { ((((JourneyUpdate.dated "1" "j").withEstimated (.atStop "A")).withEstimated
      (.atStop "C")).withEstimated .blank).withEstimated (.atStop "D") with complete := some true }
    let later : Timestamp := ⟨0, 999999999, by decide⟩
    wholeWay ∈ forgetsInASecond.matcher.select (.journey u) ∧
    ∃ pushes h' pushes' g', forgetsInASecond.route (.journey u) .epoch = .ok (pushes, h') ∧
      (∃ o ∈ pushes, o.subscription = wholeWay) ∧
      wholeWay ∈ (HubOp.run h' [.evict later]).matcher.select (.journey v) ∧
      (HubOp.run h' [.evict later]).route (.journey v) later = .ok (pushes', g') ∧
      ∀ o' ∈ pushes', o'.subscription ≠ wholeWay := by
  intro u v later
  have hroute : forgetsInASecond.route (.journey u) .epoch = .ok _ := route_outcome (by decide)
  have hpushed : (forgetsInASecond.outcome (.journey u) .epoch).1.map Outgoing.subscription =
      [wholeWay] := by decide
  obtain ⟨o, ho, hos⟩ := List.mem_map.mp (hpushed ▸ List.mem_cons_self)
  have hagrees : u.AgreesAt (forgetsInASecond.topology.subscribedStops wholeWay) v :=
    ⟨by decide, by decide, by decide⟩
  have httl : forgetsInASecond.dedup.ttl = (Interval.ofSeconds 1).toDelta := by
    rw [forgetsInASecond, DedupCache.empty]
  obtain ⟨-, -, hrepeated⟩ :=
    elsewhere_unseen forgetsInASecond (.ofSeconds 1) httl wholeWay (by decide)
  have hcopy : o.event = .journey (u.trimmed wholeWay
      (forgetsInASecond.topology.subscribedStops wholeWay)) := by
    obtain ⟨-, hcopy⟩ := copy_of_route hroute ho
    rw [hos] at hcopy
    exact (Option.some.inj hcopy).symm
  have hpayload : ∃ payload, Event.format.toPayload o.event = .ok payload := by
    rw [hcopy]
    exact ⟨_, Event.format.toPayload_of_size (by decide +kernel)⟩
  have hevict : ∀ t, HubOp.evict t ∈ [.evict later] → t ≤ later := by
    intro t ht
    cases List.mem_singleton.mp ht
    decide
  obtain ⟨pushes', g', hroute', hnone⟩ := hrepeated u v .epoch later _ _ o [.evict later] hroute ho hos
    hpayload (fun _ => by decide) hevict (by decide) hagrees
  refine ⟨by decide, _, _, pushes', g', hroute, ⟨o, ho, hos⟩, by decide, hroute', fun o' ho' hsame => ?_⟩
  exact hnone o' ho' (hsame ▸ ⟨rfl, rfl, rfl⟩)

end Hub
end TransitPush
