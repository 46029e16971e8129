import TransitPush.Proofs.Delivery.Heartbeats
import TransitPush.Proofs.Server.Requests
/-!
# The schedule and who is stored

Sweeps write the schedule, for those whom they list, and each removal of a subscription takes its entry
along. Nothing else touches it. So the schedule has entries of stored subscriptions alone, whatever is
removed in whatever way, and who is new has none until a sweep has seen it.

* `ServerOp.sweep?`: the sweep that an operation makes, if it makes one.
* `Registry.Unwritten`: an entry of the schedule is as it was, or gone. One lemma for each thing that a
  server does but sweep, put together in `Hub.unwritten_step`.
* `Sweeper.not_due_unscheduled`: who has no entry gets no heartbeat.
* `Hub.schedule_current`: the schedule over every run from an empty server.
-/
namespace TransitPush

/-- The planner and the time of the sweep that an operation makes: by the server's own planner, or by
another one. -/
def ServerOp.sweep? (own : Planner) : ServerOp → Option (Planner × Timestamp)
  | .sweep now => some (own, now)
  | .registry (.sweep planner now) => some (planner, now)
  | _ => none

/-! ## Entries that nobody writes -/

/-- The outcome of a push leaves the entry as it is, or removes it. -/
theorem Account.entry_settled_cases (a : Account) (limit : UInt32) (o : Outcome) :
    (a.settled limit o).1.entry = none ∨ (a.settled limit o).1.entry = a.entry := by
  cases o with
  | delivered => exact .inr rfl
  | reset => exact .inl rfl
  | failed status =>
    unfold settled
    dsimp only
    split
    · exact .inr rfl
    · split
      · exact .inr rfl
      · exact .inl rfl

namespace Registry

variable {r r' r'' : Registry MemoryStore} {s t : Subscription} {id : SubscriptionId}

/-- Each entry of the schedule is as it was, or gone. -/
def Unwritten (r r' : Registry MemoryStore) : Prop :=
  ∀ id, r'.schedule.get? id = none ∨ r'.schedule.get? id = r.schedule.get? id

namespace Unwritten

theorem of_eq (h : r'.schedule = r.schedule) : r.Unwritten r' :=
  fun id => .inr (congrArg (·.get? id) h)

theorem refl (r : Registry MemoryStore) : r.Unwritten r :=
  of_eq rfl

theorem trans (h : r.Unwritten r') (h' : r'.Unwritten r'') : r.Unwritten r'' := by
  intro id
  rcases h' id with hgone | hsame
  · exact .inl hgone
  · rw [hsame]
    exact h id

/-- Who has no entry gets none. -/
theorem unscheduled (h : r.Unwritten r') (hnone : r.schedule.get? id = none) :
    r'.schedule.get? id = none := by
  rcases h id with hgone | hsame
  · exact hgone
  · rw [hsame, hnone]

theorem saved (hs : Saved r s t r') : r.Unwritten r' :=
  of_eq (by cases hs <;> rfl)

theorem without (r : Registry MemoryStore) (i : SubscriptionId) : r.Unwritten (r.without i) := by
  intro id
  have hentry : (r.without i).schedule.get? id = if id = i then none else r.schedule.get? id :=
    Table.get?_erase r.schedule i id
  split at hentry
  · exact .inl hentry
  · exact .inr hentry

theorem settled (h : r.store.Consistent) (i : SubscriptionId) (o : Outcome) :
    r.Unwritten (r.settled i o) := by
  intro id
  have hentry := congrArg Account.entry (account_settled (k := id) (i := i) h o)
  split at hentry
  · rename_i hid
    subst hid
    exact ((r.account id).entry_settled_cases r.failureLimit o).imp hentry.trans hentry.trans
  · exact .inr hentry

end Unwritten
end Registry

namespace Courier

variable {τ : Type} {c : Courier MemoryStore τ}

/-- Nothing but a sweep writes the schedule. -/
theorem unwritten_manage (h : c.registry.Sound) {op : RegistryOp}
    (hop : ∀ planner now, op ≠ .sweep planner now) :
    c.registry.Unwritten (c.manage op).registry := by
  have hc := h.lawful.consistent
  cases op with
  | sweep planner now => exact absurd rfl (hop planner now)
  | put s =>
    rw [manage]
    cases hput : c.registry.put s with
    | ok saved => exact .saved (Registry.put_eq_ok.mp hput).2
    | error e => exact .refl _
  | subscribe s =>
    rw [manage]
    cases hsub : c.registry.subscribe s with
    | ok saved =>
      obtain ⟨_, _, -, -, hs⟩ := Registry.subscribe_eq_ok.mp hsub
      exact .saved hs
    | error e => exact .refl _
  | remove id => exact .without _ id
  | reload => exact .of_eq rfl
  | recordSuccess id =>
    rw [manage, Registry.recordSuccess_eq hc]
    exact .of_eq rfl
  | recordFailure id => exact .settled hc id (.failed none)

variable [Transport τ]

theorem unwritten_deliver (h : c.registry.Sound) (now : Timestamp) (p : Parcel) :
    c.registry.Unwritten (c.deliver now p).registry := by
  cases p with
  | push o =>
    rw [registry_deliver_push]
    exact .settled h.lawful.consistent _ _
  | notice kind address envelope =>
    rw [registry_deliver_notice]
    exact .refl _

theorem unwritten_finish (h : c.registry.Sound) (now : Timestamp) (i : Nat) :
    c.registry.Unwritten (c.finish now i).registry := by
  unfold finish
  split
  · rename_i p hp
    exact unwritten_deliver (c := { c with waiting := c.waiting.eraseIdx i }) h now p
  · exact .refl _

theorem unwritten_finishAll (h : c.registry.Sound) (now : Timestamp) :
    c.registry.Unwritten (c.finishAll now).registry := by
  have hall : ∀ (ps : List Parcel) (c : Courier MemoryStore τ), c.registry.Sound →
      c.registry.Unwritten (ps.foldl (fun c p => c.deliver now p) c).registry := by
    intro ps
    induction ps with
    | nil => exact fun c _ => .refl c.registry
    | cons p ps ih =>
      intro c h
      have hfirst := unwritten_deliver h now p
      exact hfirst.trans (ih _ (ages_deliver h now p).sound)
  exact hall c.waiting { c with waiting := [] } h

end Courier

/-! ## Requests -/

namespace Api.Request

variable {r : Request} {a : Asked}

theorem askedBy_ne {α : Type} {f : Json.Format α} {ask : α → Asked} (hnothing : .nothing ≠ a)
    (hask : ∀ x, ask x ≠ a) : r.askedBy f ask ≠ a := by
  unfold askedBy
  split
  · exact hask _
  · exact hnothing

/-- No request asks for a sweep. -/
theorem asked_ne_sweep (r : Request) (planner : Planner) (now : Timestamp) :
    r.asked ≠ .manage (.sweep planner now) := by
  have hat : ∀ method route, r.askedAt method route ≠ .manage (.sweep planner now) := by
    intro method route
    cases route with
    | health => exact nofun
    | subscriptions | enveloped | situations | journeys =>
      dsimp only [askedAt]
      split
      · exact askedBy_ne nofun fun _ => nofun
      · exact nofun
    | subscription id =>
      dsimp only [askedAt]
      split
      · cases id <;> exact nofun
      · exact nofun
    | reload =>
      dsimp only [askedAt]
      split <;> exact nofun
  unfold asked
  split
  · exact hat _ _
  · exact nofun

end Api.Request

/-! ## Who has no entry -/

/-- Who has no entry gets no heartbeat. -/
theorem Sweeper.not_due_unscheduled {w : Sweeper} {sw : Sweep} {id : SubscriptionId}
    (hunique : sw.Unique) (hnone : w.schedule.get? id = none) :
    ∀ s ∈ (w.plan sw).heartbeat, s.id ≠ id := by
  have hbeats : w.beats id sw = 0 := by
    have hafter := congrArg Prod.fst (@beats_after w sw id hunique)
    rw [hnone] at hafter
    refine hafter.trans ?_
    cases Planner.intervalIn (w.remaining sw) id <;> rfl
  intro s hs hid
  exact List.countP_eq_zero.mp hbeats s hs (decide_eq_true hid)

namespace Hub

variable {τ : Type} {h : Hub MemoryStore τ} {id : SubscriptionId} {op : ServerOp}
  {planner : Planner} {now : Timestamp}

theorem not_due_unscheduled (hs : h.registry.Sound) (hnone : h.registry.schedule.get? id = none)
    (planner : Planner) (now : Timestamp) :
    ∀ s ∈ (h.courier.sweep planner now).1.heartbeat, s.id ≠ id :=
  Sweeper.not_due_unscheduled (w := ⟨planner, h.registry.schedule⟩) (hs.unique now) hnone

/-- Who ends in a sweep gets no heartbeat in it. -/
theorem not_due_ended (hs : h.registry.Sound) {s : Subscription}
    (hended : s ∈ (h.courier.sweep planner now).1.terminate) :
    ∀ t ∈ (h.courier.sweep planner now).1.heartbeat, t.id ≠ s.id := fun _ ht =>
  (Sweeper.terminate_disjoint (w := ⟨planner, h.registry.schedule⟩) (hs.unique now) hended ht).symm

variable [Transport τ]

/-- What an operation does that makes a sweep. -/
theorem step_sweep (hop : op.sweep? h.planner = some (planner, now)) :
    (h.step op).courier = (h.courier.sweep planner now).2.2 ∧
      h.ended op = (h.courier.sweep planner now).1.terminate.map fun s => (s.id, s.endNotice now) := by
  cases op with
  | sweep now =>
    cases hop
    exact ⟨rfl, rfl⟩
  | registry op =>
    cases op with
    | sweep planner now =>
      cases hop
      exact ⟨rfl, rfl⟩
    | _ => cases hop
  | _ => cases hop

/-- Operations that make no sweep do not write the schedule. -/
theorem unwritten_step (hs : h.registry.Sound) (hop : ∀ own, op.sweep? own = none) :
    h.registry.Unwritten (h.step op).registry := by
  cases op with
  | request node r now =>
    rw [step, handle_eq_serve]
    cases hasked : r.asked with
    | nothing => exact .refl _
    | manage op =>
      refine Courier.unwritten_manage hs ?_
      rintro planner now rfl
      exact r.asked_ne_sweep planner now hasked
    | event e =>
      rw [registry_serve_event]
      exact .refl _
  | registry op =>
    refine Courier.unwritten_manage hs ?_
    rintro planner now rfl
    cases hop planner
  | publish e now =>
    rw [registry_step_publish]
    exact .refl _
  | finish i now => exact Courier.unwritten_finish hs now i
  | drain now => exact Courier.unwritten_finishAll hs now
  | sweep now => cases hop h.planner
  | evictPushes now => exact .refl _
  | evictRoutes cutoff => exact .refl _
  | live f => exact .refl _

theorem unwritten_run (hs : h.registry.Sound) {ops : List ServerOp}
    (hops : ∀ op ∈ ops, ∀ own, op.sweep? own = none) :
    h.registry.Unwritten (h.run ops).registry := by
  induction ops generalizing h with
  | nil => exact .refl _
  | cons op ops ih =>
    obtain ⟨hop, hops⟩ := List.forall_mem_cons.mp hops
    exact (unwritten_step hs hop).trans (ih (ages_step hs op).sound hops)

/-- **The schedule does not outlive its subscriptions.** Over every run of operations from an empty
server, with identifiers that never repeat: every entry of the schedule is one of a stored subscription.
Who is not stored, and is stored anew by operations that make no sweep, has no entry, and the next sweep
has no heartbeat for it. What a sweep queues are the notices of the end for those whom it ends and the
heartbeats that are due; nobody ends and gets a heartbeat in it, and who has ended has no entry and gets
no heartbeat after it, whatever is done then. -/
theorem schedule_current (hstore : h.store = .empty) (hschedule : h.registry.schedule = ∅)
    (hids : h.registry.ids.Proper) :
    (∀ ops, ∀ id ∈ (h.run ops).registry.schedule.keys,
      ∃ s, SubscriptionStore.get? (h.run ops).store id = some s ∧ s.id = id) ∧
    (∀ ops between id, SubscriptionStore.get? (h.run ops).store id = none →
      (∀ op ∈ between, ∀ own, op.sweep? own = none) →
      let next := h.run (ops ++ between)
      next.registry.schedule.get? id = none ∧
        ∀ planner now, ∀ s ∈ (next.courier.sweep planner now).1.heartbeat, s.id ≠ id) ∧
    ∀ ops op planner now, op.sweep? (h.run ops).planner = some (planner, now) →
      let before := h.run ops
      let plan := (before.courier.sweep planner now).1
      (h.run (ops ++ [op])).courier.waiting = before.courier.waiting ++
          (plan.terminate.map fun s => s.endNotice now) ++
          (plan.heartbeat.map fun s => s.heartbeatNotice now) ∧
        ∀ s ∈ plan.terminate, (∀ t ∈ plan.heartbeat, t.id ≠ s.id) ∧
          ∀ later,
            let after := h.run (ops ++ [op] ++ later)
            after.registry.schedule.get? s.id = none ∧
              ∀ planner now, ∀ t ∈ (after.courier.sweep planner now).1.heartbeat, t.id ≠ s.id := by
  have hsound : ∀ ops, (h.run ops).registry.Sound := fun ops =>
    (ages_run (.empty hstore hschedule hids) ops).sound
  refine ⟨fun ops id hid => ?_, fun ops between id hnone hbetween => ?_,
    fun ops op planner now hop => ?_⟩
  · cases hget : SubscriptionStore.get? (h.run ops).store id with
    | some s => exact ⟨s, rfl, (hsound ops).lawful.consistent.own id s hget⟩
    | none =>
      obtain ⟨entry, hentry⟩ := Table.mem_keys.mp hid
      rw [(hsound ops).unscheduled id hget] at hentry
      cases hentry
  · intro next
    have hunwritten := unwritten_run (hsound ops) hbetween
    rw [← run_append] at hunwritten
    have hentry := hunwritten.unscheduled ((hsound ops).unscheduled id hnone)
    exact ⟨hentry, not_due_unscheduled (hsound _) hentry⟩
  · intro before plan
    obtain ⟨hcourier, hended⟩ := step_sweep hop
    have hstep : h.run (ops ++ [op]) = before.step op := run_append
    refine ⟨?_, fun s hs => ⟨not_due_ended (hsound ops) hs, fun later => ?_⟩⟩
    · rw [hstep, hcourier]
      exact Courier.waiting_sweep planner now
    · -- who ended is gone, and who is gone stays gone
      have hid : s.id ∈ (before.ended op).map Prod.fst := by
        rw [hended, List.map_map]
        exact List.mem_map.mpr ⟨s, hs, rfl⟩
      have hgone := (gone_of_ended (hsound ops) hid).2
      rw [← hstep] at hgone
      have hlater := ages_run (hsound (ops ++ [op])) later
      rw [← run_append] at hlater
      have hgone := hgone.ages (hsound _).lawful.proper hlater
      have hentry := (hsound _).unscheduled s.id hgone.unstored
      exact ⟨hentry, not_due_unscheduled (hsound _) hentry⟩

def beating : Subscription :=
  { (Subscription.pushing "" "http://a").withLine "NSB:Line:1" with heartbeat := some (.ofSeconds 1) }

/-- Two such subscribers are swept, of whom the first ends soon, and a third comes. -/
def thirdComing : List ServerOp :=
  [.registry (.put { beating with terminatesAt := some ⟨70, 0, by decide⟩ }),
    .registry (.put beating), .sweep .epoch] ++ [.registry (.put beating)]

/-- The next sweep ends the first, has a heartbeat for the second and none for the third. -/
theorem schedule_current_thirdComing :
    let later : Timestamp := ⟨71, 0, by decide⟩
    let before := vacant.run thirdComing
    let plan := (before.courier.sweep before.planner later).1
    vacant.store = .empty ∧ vacant.registry.schedule = ∅ ∧ vacant.registry.ids.Proper ∧
    before.registry.schedule.keys = ["i", "ii"] ∧
    (∀ id ∈ before.registry.schedule.keys,
      ∃ s, SubscriptionStore.get? before.store id = some s ∧ s.id = id) ∧
    plan.terminate.map Subscription.id = ["i"] ∧ plan.heartbeat.map Subscription.id = ["ii"] ∧
    (∀ s ∈ plan.heartbeat, s.id ≠ "iii") ∧
    (vacant.run (thirdComing ++ [.sweep later] ++ [.drain later])).registry.schedule.get? "i" = none := by
  intro later before plan
  obtain ⟨hstored, hnew, hended⟩ := @schedule_current _ vacant _ rfl rfl Supply.tally_proper
  have hterminate : plan.terminate.map Subscription.id = ["i"] := by decide
  obtain ⟨s, hs, hid⟩ : ∃ s ∈ plan.terminate, s.id = "i" := by
    rw [← List.mem_map, hterminate]
    exact List.mem_singleton_self "i"
  obtain ⟨-, hnone⟩ := hnew (thirdComing.take 3) [.registry (.put beating)] "iii" (by decide)
    (by simp [ServerOp.sweep?])
  obtain ⟨-, hgone⟩ := hended thirdComing (.sweep later) before.planner later rfl
  have hentry := ((hgone s hs).2 [.drain later]).1
  rw [hid] at hentry
  exact ⟨rfl, rfl, Supply.tally_proper, by decide, hstored thirdComing, hterminate, by decide,
    hnone before.planner later, hentry⟩

end Hub
end TransitPush
