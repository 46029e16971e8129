import TransitPush.Proofs.Delivery.Terminations
import TransitPush.Proofs.Routing.Pushes
import TransitPush.Proofs.Server.Run
/-!
# Removed for good

An identifier that was drawn and is not in use is never in use again: new subscriptions get others, and
nobody is stored anew under an identifier that is not in use. So a subscription that was removed stays
away from everything that the server does.

* `Registry.Gone`: such an identifier, `Registry.Gone.ages`: it stays one.
* `Hub.Without`: what it means for the server, `Hub.Without.of_gone`.
* `Hub.endings`: who ends in a run, with the notices. Nobody ends twice (`Hub.endings_nodup`).
* `Hub.removed_for_good`: all of it, for every run from an empty store.
-/
namespace TransitPush

/-! ## Gone identifiers -/

namespace Registry

variable {r r' : Registry MemoryStore} {s : Subscription} {id : SubscriptionId}

/-- The identifier was drawn, and nobody is stored under it. -/
structure Gone (r : Registry MemoryStore) (id : SubscriptionId) : Prop where
  drawn : ∃ i < r.ids.drawn, id = r.ids.name i
  unstored : r.store.subscriptions.get? id = none

/-- Who was stored and is stored no more, is gone. -/
theorem Gone.of_removed (h : r.Sound) (ha : r.Ages r')
    (hget : r.store.subscriptions.get? id = some s)
    (hnone : r'.store.subscriptions.get? id = none) : r'.Gone id := by
  obtain ⟨i, hi, hname⟩ := h.lawful.issued id s hget
  exact ⟨⟨i, Nat.lt_of_lt_of_le hi ha.drawn, by rw [ha.name, hname]⟩, hnone⟩

/-- Who is gone stays gone. -/
theorem Gone.ages (h : r.Gone id) (hproper : r.ids.Proper) (ha : r.Ages r') : r'.Gone id := by
  obtain ⟨⟨i, hi, rfl⟩, hnone⟩ := h
  refine ⟨⟨i, Nat.lt_of_lt_of_le hi ha.drawn, by rw [ha.name]⟩, ?_⟩
  by_contra hsome
  obtain ⟨j, hj, hname⟩ := ha.stored _ hnone hsome
  have hsame := hproper.distinct i j hname
  omega

/-- A put under an identifier that is gone is told that it is unknown. -/
theorem Gone.put (h : r.Gone id) (hproper : r.ids.Proper) (hid : s.id = id)
    (hcheck : s.normalized.check false = .ok ()) : r.put s = .error (.unknown id) := by
  obtain ⟨⟨i, -, hname⟩, hnone⟩ := h
  have hvisible : Text.isBlankText s.normalized.id = false := by
    show Text.isBlankText s.id = false
    rw [hid, hname]
    exact hproper.visible i
  have hupdate : SubscriptionStore.update r.store s.normalized = .error (.notFound s.id) := by
    show MemoryStore.update r.store s.normalized = _
    unfold MemoryStore.update
    rw [show s.normalized.id = s.id from rfl, hid, hnone]
  unfold Registry.put save
  dsimp only
  rw [hcheck]
  dsimp only
  rw [if_neg (by simp [hvisible]), replace, hupdate, hid]

/-- A sweep of what is stored lists nobody twice. -/
theorem Sound.unique (h : r.Sound) (now : Timestamp) :
    Sweep.Unique ⟨SubscriptionStore.list r.store, now⟩ := by
  show (r.store.subscriptions.values.map Subscription.id).Nodup
  rw [h.lawful.consistent.own.map_id_values]
  exact r.store.subscriptions.keys_nodup

/-- Nobody of a list that is removed is stored afterwards. -/
theorem unstored_withoutAll (h : r.store.Consistent) {ss : List Subscription} (hs : s ∈ ss) :
    (ss.foldl (fun r s => r.without s.id) r).store.subscriptions.get? s.id = none := by
  induction ss generalizing r with
  | nil => cases hs
  | cons first ss ih =>
    have hfirst := Inherits.without h first.id
    rcases List.mem_cons.mp hs with rfl | hs
    · have hnone : (r.without s.id).store.subscriptions.get? s.id = none := r.store.get?_remove s.id
      by_contra hsome
      obtain ⟨t, ht⟩ := Option.ne_none_iff_exists'.mp hsome
      obtain ⟨before, -, hbefore, -⟩ := (Inherits.withoutAll hfirst.consistent ss).stored s.id t ht
      rw [hnone] at hbefore
      cases hbefore
    · exact ih hfirst.consistent hs

end Registry

/-! ## What the server does about them -/

namespace Hub

variable {τ : Type} [Transport τ] {h : Hub MemoryStore τ} {id : SubscriptionId}

/-- The server has nothing to do with an identifier any more: nobody is found under it, events lead to
no push and sweeps to no notice for it, answers to its pushes change nothing in the registry, and who
brings it along in a valid subscription is told that it is unknown. -/
structure Without (h : Hub MemoryStore τ) (id : SubscriptionId) : Prop where
  get? : SubscriptionStore.get? h.store id = none
  list : ∀ s ∈ SubscriptionStore.list h.store, s.id ≠ id
  byName? : ∀ name s, SubscriptionStore.byName? h.store name = some s → s.id ≠ id
  byStop : ∀ key, ∀ s ∈ SubscriptionStore.byStop h.store key, s.id ≠ id
  byLine : ∀ key, ∀ s ∈ SubscriptionStore.byLine h.store key, s.id ≠ id
  byCodespace : ∀ key, ∀ s ∈ SubscriptionStore.byCodespace h.store key, s.id ≠ id
  indexes : ∀ ix ∈ [h.store.byStop, h.store.byLine, h.store.byCodespace], ∀ key, ¬ id ∈ ix.ids key
  schedule : h.registry.schedule.get? id = none
  forStop : ∀ stop, ∀ s ∈ h.matcher.forStop stop, s.id ≠ id
  select : ∀ e, ∀ s ∈ h.matcher.select e, s.id ≠ id
  route : ∀ e now pushes h', h.route e now = .ok (pushes, h') → ∀ o ∈ pushes, o.subscription.id ≠ id
  terminate : ∀ now, ∀ s ∈ (h.sweep now).1.terminate, s.id ≠ id
  heartbeat : ∀ now, ∀ s ∈ (h.sweep now).1.heartbeat, s.id ≠ id
  answered : ∀ o now, o.subscription.id = id →
    (h.courier.deliver now (.push o)).registry = h.registry
  put : ∀ s, s.id = id → s.normalized.check false = .ok () →
    h.registry.put s = .error (.unknown id)

omit [Transport τ] in
theorem listed_of_terminate {planner : Planner} {now : Timestamp} {s : Subscription}
    (hs : s ∈ (h.courier.sweep planner now).1.terminate) : s ∈ SubscriptionStore.list h.store := by
  have hsub : ((Sweeper.mk planner h.registry.schedule).plan
      ⟨SubscriptionStore.list h.store, now⟩).terminate.Sublist (SubscriptionStore.list h.store) :=
    Sweeper.terminate_sublist
  exact hsub.subset hs

omit [Transport τ] in
theorem listed_of_heartbeat {planner : Planner} {now : Timestamp} {s : Subscription}
    (hs : s ∈ (h.courier.sweep planner now).1.heartbeat) : s ∈ SubscriptionStore.list h.store := by
  have hsub : ((Sweeper.mk planner h.registry.schedule).plan
      ⟨SubscriptionStore.list h.store, now⟩).heartbeat.Sublist _ := Sweeper.heartbeat_sublist
  exact List.mem_of_mem_filter (hsub.subset hs)

theorem Without.of_gone (hs : h.registry.Sound) (hgone : h.registry.Gone id) : h.Without id := by
  have hconsistent := hs.lawful.consistent
  have hstored : ∀ s, SubscriptionStore.get? h.store s.id = some s → s.id ≠ id := by
    rintro s hget rfl
    rw [show SubscriptionStore.get? h.store s.id = none from hgone.unstored] at hget
    cases hget
  have hlist : ∀ s ∈ SubscriptionStore.list h.store, s.id ≠ id :=
    fun s hs => hstored s (hconsistent.own.mem_values.mp hs)
  have hunscheduled := hs.unscheduled id hgone.unstored
  have hselect : ∀ e, ∀ s ∈ h.matcher.select e, s.id ≠ id := fun e s hs =>
    hstored s (Matcher.stored_select (m := h.matcher) hconsistent.answersFrom hconsistent.own e s hs)
  refine ⟨hgone.unstored, hlist, ?_, ?_, ?_, ?_, hconsistent.unindexed hgone.unstored, hunscheduled,
    ?_, hselect, ?_, ?_, ?_, ?_, ?_⟩
  · exact fun name s hs => hlist s (List.mem_of_find?_eq_some hs)
  · exact fun key s hs => hstored s (((hconsistent.exactly_byStop key).mem s).mp hs).1
  · exact fun key s hs => hstored s (((hconsistent.exactly_byLine key).mem s).mp hs).1
  · exact fun key s hs => hstored s (((hconsistent.exactly_byCodespace key).mem s).mp hs).1
  · intro stop s hs
    have hfound := (Matcher.mem_forStop (m := h.matcher) hconsistent.answersFrom).mp hs
    exact hstored s hfound.1
  · exact fun e now pushes h' hroute o ho => hselect e _ (copy_of_route hroute ho).1
  · exact fun now s hs => hlist s (listed_of_terminate hs)
  · exact fun now s hs => hlist s (listed_of_heartbeat hs)
  · intro o now ho
    rw [Courier.registry_deliver_push, ho]
    exact Registry.settled_gone hgone.unstored hunscheduled _
  · exact fun s hid hcheck => hgone.put hs.lawful.proper hid hcheck

/-! ## Ends -/

/-- Who ends in a run, with the notices that are queued. -/
def endings (h : Hub MemoryStore τ) : List ServerOp → List (SubscriptionId × Parcel)
  | [] => []
  | op :: ops => h.ended op ++ (h.step op).endings ops

/-- Nobody ends in an operation, or it is a sweep. -/
theorem ended_cases (h : Hub MemoryStore τ) (op : ServerOp) : h.ended op = [] ∨
    ∃ planner now, h.ended op =
        ((h.courier.sweep planner now).1.terminate.map fun s => (s.id, s.endNotice now)) ∧
      (h.step op).registry = (h.courier.sweep planner now).2.2.registry := by
  cases op with
  | registry op =>
    cases op with
    | sweep planner now => exact .inr ⟨planner, now, rfl, rfl⟩
    | _ => exact .inl rfl
  | sweep now => exact .inr ⟨h.planner, now, rfl, rfl⟩
  | _ => exact .inl rfl

/-- Who ends was stored, and is gone. -/
theorem gone_of_ended (hs : h.registry.Sound) {op : ServerOp}
    (hid : id ∈ (h.ended op).map Prod.fst) :
    h.registry.store.subscriptions.get? id ≠ none ∧ (h.step op).registry.Gone id := by
  have hages := ages_step hs op
  rcases h.ended_cases op with hnone | ⟨planner, now, hended, hstep⟩
  · rw [hnone] at hid
    exact absurd hid List.not_mem_nil
  · rw [hended, List.map_map, List.mem_map] at hid
    obtain ⟨s, hterminate, rfl⟩ := hid
    have hget : h.registry.store.subscriptions.get? s.id = some s :=
      hs.lawful.consistent.own.mem_values.mp (listed_of_terminate hterminate)
    refine ⟨by simp [hget], .of_removed hs hages hget ?_⟩
    rw [hstep, Courier.registry_sweep]
    have hentries := Registry.Ages.rescheduled hs planner now
    exact Registry.unstored_withoutAll hentries.sound.lawful.consistent hterminate

/-- Who is gone does not end in a run. -/
theorem not_ending_of_gone (hs : h.registry.Sound) (hgone : h.registry.Gone id)
    (ops : List ServerOp) : id ∉ (h.endings ops).map Prod.fst := by
  induction ops generalizing h with
  | nil => exact List.not_mem_nil
  | cons op ops ih =>
    have hages := ages_step hs op
    rw [endings, List.map_append, List.mem_append, not_or]
    refine ⟨fun hid => (gone_of_ended hs hid).1 hgone.unstored, ?_⟩
    exact ih hages.sound (hgone.ages hs.lawful.proper hages)

/-- Nobody ends twice. -/
theorem endings_nodup (hs : h.registry.Sound) (ops : List ServerOp) :
    ((h.endings ops).map Prod.fst).Nodup := by
  induction ops generalizing h with
  | nil => exact List.nodup_nil
  | cons op ops ih =>
    have hages := ages_step hs op
    rw [endings, List.map_append]
    refine List.nodup_append.mpr ⟨?_, ih hages.sound, ?_⟩
    · rcases h.ended_cases op with hnone | ⟨planner, now, hended, -⟩
      · rw [hnone]
        exact List.nodup_nil
      · have hsub : ((Sweeper.mk planner h.registry.schedule).plan
            ⟨SubscriptionStore.list h.store, now⟩).terminate.Sublist _ := Sweeper.terminate_sublist
        rw [hended, List.map_map]
        exact List.Nodup.sublist (hsub.map Subscription.id) (hs.unique now)
    · rintro id hid _ hlater rfl
      exact not_ending_of_gone hages.sound (gone_of_ended hs hid).2 ops hlater

/-- **Removed for good.** Over every run of operations from an empty store, with identifiers that never
repeat: who is stored before some operation and not after it, is not stored, found, told, scheduled or
ended after any further operations, answers to pushes that were on their way change nothing for it,
and who brings its identifier along is told that it is unknown. Nobody ends twice, and notices of an
end are queued for those who end and nobody else. -/
theorem removed_for_good (h : Hub MemoryStore τ) (hstore : h.store = .empty)
    (hschedule : h.registry.schedule = ∅) (hids : h.registry.ids.Proper) :
    (∀ (ops : List ServerOp) (op : ServerOp) (later : List ServerOp) (id : SubscriptionId) s,
      SubscriptionStore.get? (h.run ops).store id = some s →
      SubscriptionStore.get? (h.run (ops ++ [op])).store id = none →
      (h.run (ops ++ [op] ++ later)).Without id) ∧
    (∀ ops, ((h.endings ops).map Prod.fst).Nodup) ∧
    ∀ ops op, ∃ kept, kept.Sublist (h.run ops).courier.endNotices ∧
      (h.run (ops ++ [op])).courier.endNotices =
        kept ++ ((h.run ops).ended op).map Prod.snd := by
  have hsound : h.registry.Sound := .empty hstore hschedule hids
  refine ⟨fun ops op later id s hget hnone => ?_, endings_nodup hsound, fun ops op => ?_⟩
  · have hbefore := (ages_run hsound ops).sound
    have hremoval := ages_step hbefore op
    rw [run_append] at hnone
    have hgone := Registry.Gone.of_removed hbefore hremoval hget hnone
    have hlater := ages_run hremoval.sound later
    rw [run_append, run_append]
    exact .of_gone hlater.sound (hgone.ages hremoval.sound.lawful.proper hlater)
  · rw [run_append]
    exact endNotices_step (h.run ops) op

def vacant : Hub MemoryStore PlayedTransport where
  courier := Courier.idle
  topology := .empty
  routes := ∅
  dedup := .empty DedupCache.defaultTtl ⟨toString, 0⟩
  accepted := []
  planner := .ofInterval Planner.defaultCheckInterval

/-- Two subscribers to a line, one of whom ends soon. An event of the line is on its way to both. -/
def onTheirWay : List ServerOp :=
  let line := (Subscription.pushing "" "http://a").withLine "NSB:Line:1"
  [.registry (.put { line with heartbeat := some (.ofSeconds 1) }),
    .registry (.put { line with terminatesAt := some ⟨100, 0, by decide⟩ }),
    .sweep .epoch, .publish (.situation closedQuay) .epoch]

def deletion : ServerOp :=
  .request "" { method := "DELETE", target := "/subscriptions/i", contentType := none, body := ⟨#[]⟩ }
    .epoch

/-- The push to the first comes back late. The second ends, and is swept again. -/
def afterwards : List ServerOp :=
  let later : Timestamp := ⟨101, 0, by decide⟩
  [.finish 0 .epoch, .registry .reload, .registry (.sweep (.ofInterval (.ofSeconds 1)) later),
    .sweep later, .drain later]

theorem removed_for_good_vacant :
    vacant.store = .empty ∧ vacant.registry.ids.Proper ∧
    (vacant.run onTheirWay).courier.waiting.length = 2 ∧
    (vacant.run (onTheirWay ++ [deletion] ++ afterwards)).Without "i" ∧
    (vacant.endings (onTheirWay ++ [deletion] ++ afterwards)).map Prod.fst = ["ii"] ∧
    ((vacant.endings (onTheirWay ++ [deletion] ++ afterwards)).map Prod.fst).Nodup := by
  obtain ⟨hwithout, hnodup, -⟩ := removed_for_good vacant rfl rfl Supply.tally_proper
  have hstored : (SubscriptionStore.get? (vacant.run onTheirWay).store "i").isSome = true := by
    decide
  obtain ⟨s, hs⟩ := Option.isSome_iff_exists.mp hstored
  have hremoved : SubscriptionStore.get? (vacant.run (onTheirWay ++ [deletion])).store "i" = none := by
    decide +kernel
  exact ⟨rfl, Supply.tally_proper, by decide,
    hwithout onTheirWay deletion afterwards "i" s hs hremoved, by decide +kernel, hnodup _⟩

end Hub
end TransitPush
