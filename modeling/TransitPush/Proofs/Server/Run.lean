import TransitPush.Api.Handler
import TransitPush.Proofs.Delivery.Completions
import TransitPush.Proofs.Registry.Lifecycle
/-!
# Runs of a server

Requests come in, events are published, parcels that wait are posted, sweeps are made, records and
routes are forgotten, in any order and at any times. Whatever is done, the registry grows older in one
way only: who is stored afterwards was stored before or has an identifier that was not drawn before.

* `Registry.Sound`: stored subscriptions are lawful, and only they have entries in the schedule.
* `Registry.Ages`: the way in which a registry grows older. One lemma for each thing that writes it,
  from `Ages.saved` to `Ages.settled`.
* `Hub.ages_step`: every operation of a server is such a way.
* `Hub.endNotices_step`: what an operation does to the notices of an end that wait.
-/
namespace TransitPush

/-- An account without a subscription gets no entry from the outcome of a push, and one that is closed
keeps none. -/
theorem Account.entry_settled {a : Account} {limit : UInt32} {o : Outcome}
    (ha : a.subscription = none → a.entry = none)
    (hnone : (a.settled limit o).1.subscription = none) : (a.settled limit o).1.entry = none := by
  cases o with
  | delivered =>
    have hbefore : a.subscription = none := by simpa [settled] using hnone
    exact ha hbefore
  | reset => rfl
  | failed status =>
    cases hs : a.subscription with
    | none =>
      simp only [settled, hs]
      exact ha hs
    | some s =>
      simp only [settled, hs] at hnone ⊢
      split at hnone
      · cases hnone
      · rename_i hmore
        rw [if_neg hmore]
        rfl

namespace Registry

variable {r r' r'' : Registry MemoryStore} {s t : Subscription} {id i : SubscriptionId}

/-! ## Growing older -/

/-- Stored subscriptions are lawful, and who is not stored has no entry in the schedule. -/
structure Sound (r : Registry MemoryStore) : Prop where
  lawful : r.Lawful
  unscheduled : ∀ id, r.store.subscriptions.get? id = none → r.schedule.get? id = none

theorem Sound.empty (hstore : r.store = .empty) (hschedule : r.schedule = ∅)
    (hids : r.ids.Proper) : r.Sound where
  lawful := .empty hstore hids
  unscheduled id _ := by
    rw [hschedule]
    rfl

/-- Who is stored afterwards was stored before, or has an identifier that is drawn from now on. -/
structure Ages (r r' : Registry MemoryStore) : Prop where
  sound : r'.Sound
  name : r'.ids.name = r.ids.name
  drawn : r.ids.drawn ≤ r'.ids.drawn
  stored : ∀ id, r.store.subscriptions.get? id = none → r'.store.subscriptions.get? id ≠ none →
    ∃ i, r.ids.drawn ≤ i ∧ id = r.ids.name i

namespace Ages

theorem refl (h : r.Sound) : r.Ages r :=
  ⟨h, rfl, Nat.le_refl _, fun _ hnone hsome => absurd hnone hsome⟩

theorem trans (h : r.Ages r') (h' : r'.Ages r'') : r.Ages r'' := by
  refine ⟨h'.sound, h'.name.trans h.name, h.drawn.trans h'.drawn, fun id hnone hsome => ?_⟩
  by_cases hbetween : r'.store.subscriptions.get? id = none
  · obtain ⟨i, hi, hname⟩ := h'.stored id hbetween hsome
    exact ⟨i, h.drawn.trans hi, by rw [hname, h.name]⟩
  · exact h.stored id hnone hbetween

/-- Nobody new is stored, and who is not stored any more has no entry left. -/
theorem of_inherits (h : r.Sound) (hi : r.Inherits r')
    (hunscheduled : ∀ id, r'.store.subscriptions.get? id = none → r'.schedule.get? id = none) :
    r.Ages r' := by
  refine ⟨⟨h.lawful.inherit hi, hunscheduled⟩, by rw [hi.ids], by rw [hi.ids], ?_⟩
  intro id hnone hsome
  obtain ⟨s, hs⟩ := Option.ne_none_iff_exists'.mp hsome
  obtain ⟨before, -, hbefore, -⟩ := hi.stored id s hs
  rw [hnone] at hbefore
  cases hbefore

theorem saved (h : r.Sound) (hs : Saved r s t r') (hlawful : r'.Lawful) : r.Ages r' := by
  have hschedule : r'.schedule = r.schedule := by cases hs <;> rfl
  refine ⟨⟨hlawful, fun id hnone => ?_⟩, hs.name_ids, hs.drawn_le, fun id hnone hsome => ?_⟩
  · rw [hs.get?] at hnone
    split at hnone
    · cases hnone
    · rw [hschedule]
      exact h.unscheduled id hnone
  · rw [hs.get?] at hsome
    split at hsome
    · rename_i hid
      cases hs with
      | added hblank => exact ⟨r.ids.drawn, Nat.le_refl _, hid⟩
      | replaced hvisible hget =>
        rw [hid, hget] at hnone
        cases hnone
    · exact absurd hnone hsome

theorem put (h : r.Sound) (hput : r.put s = .ok (t, r')) : r.Ages r' :=
  saved h (put_eq_ok.mp hput).2 (h.lawful.put hput)

theorem subscribe (h : r.Sound) (hsub : r.subscribe s = .ok (t, r')) : r.Ages r' := by
  obtain ⟨_, _, -, -, hs⟩ := subscribe_eq_ok.mp hsub
  exact saved h hs (h.lawful.subscribe hsub)

theorem without (h : r.Sound) (i : SubscriptionId) : r.Ages (r.without i) := by
  refine of_inherits h (.without h.lawful.consistent i) fun id hnone => ?_
  have haccount := account_without (k := id) (i := i) h.lawful.consistent
  split at haccount
  · exact congrArg Account.entry haccount
  · have hbefore := (congrArg Account.subscription haccount).symm.trans hnone
    exact (congrArg Account.entry haccount).trans (h.unscheduled id hbefore)

theorem withoutAll (h : r.Sound) (ss : List Subscription) :
    r.Ages (ss.foldl (fun r s => r.without s.id) r) := by
  induction ss generalizing r with
  | nil => exact refl h
  | cons s ss ih =>
    have hfirst := without h s.id
    exact hfirst.trans (ih hfirst.sound)

theorem rescheduled (h : r.Sound) (planner : Planner) (now : Timestamp) :
    r.Ages (r.rescheduled planner now) := by
  refine of_inherits h ⟨h.lawful.consistent, rfl, fun id s hget => ⟨s, s.failedPushes, hget, rfl⟩⟩ ?_
  intro id hnone
  exact (Spares.rescheduled h.lawful.consistent planner now).unscheduled hnone
    (h.unscheduled id hnone)

/-- The outcome of a push. -/
theorem settled (h : r.Sound) (i : SubscriptionId) (o : Outcome) : r.Ages (r.settled i o) := by
  refine of_inherits h (.settled h.lawful.consistent i o) fun id hnone => ?_
  have haccount := account_settled (k := id) (i := i) h.lawful.consistent o
  have hsubscription := (congrArg Account.subscription haccount).symm.trans hnone
  refine (congrArg Account.entry haccount).trans ?_
  split
  · rename_i hid
    rw [if_pos hid] at hsubscription
    exact Account.entry_settled (h.unscheduled i) hsubscription
  · rename_i hid
    rw [if_neg hid] at hsubscription
    exact h.unscheduled id hsubscription

end Ages
end Registry

/-! ## The registry of a courier -/

namespace Courier

variable {τ : Type} {c : Courier MemoryStore τ}

theorem ages_manage (h : c.registry.Sound) (op : RegistryOp) :
    c.registry.Ages (c.manage op).registry := by
  cases op with
  | put s =>
    rw [manage]
    cases hput : c.registry.put s with
    | ok saved => exact .put h hput
    | error e => exact .refl h
  | subscribe s =>
    rw [manage]
    cases hsub : c.registry.subscribe s with
    | ok saved => exact .subscribe h hsub
    | error e => exact .refl h
  | remove id => exact .without h id
  | reload =>
    have hsame : c.registry.reload = c.registry := by
      show { c.registry with store := c.registry.store.reload } = c.registry
      rw [h.lawful.consistent.reload_eq]
    rw [manage, hsame]
    exact .refl h
  | recordSuccess id =>
    have hsettled := Registry.Ages.settled h id .delivered
    rw [Registry.settled_delivered h.lawful.consistent] at hsettled
    rw [manage, Registry.recordSuccess_eq h.lawful.consistent]
    exact hsettled
  | recordFailure id => exact .settled h id (.failed none)
  | sweep planner now =>
    have hentries := Registry.Ages.rescheduled h planner now
    rw [manage, registry_sweep]
    exact hentries.trans (.withoutAll hentries.sound _)

variable [Transport τ]

theorem ages_deliver (h : c.registry.Sound) (now : Timestamp) (p : Parcel) :
    c.registry.Ages (c.deliver now p).registry := by
  cases p with
  | push o =>
    rw [registry_deliver_push]
    exact .settled h _ _
  | notice kind address envelope =>
    rw [registry_deliver_notice]
    exact .refl h

theorem ages_finish (h : c.registry.Sound) (now : Timestamp) (i : Nat) :
    c.registry.Ages (c.finish now i).registry := by
  unfold finish
  split
  · rename_i p hp
    exact ages_deliver (c := { c with waiting := c.waiting.eraseIdx i }) h now p
  · exact .refl h

theorem ages_finishAll (h : c.registry.Sound) (now : Timestamp) :
    c.registry.Ages (c.finishAll now).registry := by
  have hall : ∀ (ps : List Parcel) (c : Courier MemoryStore τ), c.registry.Sound →
      c.registry.Ages (ps.foldl (fun c p => c.deliver now p) c).registry := by
    intro ps
    induction ps with
    | nil => exact fun c h => .refl h
    | cons p ps ih =>
      intro c h
      have hfirst := ages_deliver h now p
      exact hfirst.trans (ih _ hfirst.sound)
  exact hall c.waiting { c with waiting := [] } h

end Courier

/-! ## Operations of a server -/

/-- What may happen to a server: requests to its interface, and what is done to its registry, its
parcels and its records. Live routes change in any way. -/
inductive ServerOp where
  | request (node : String) (r : Api.Request) (now : Timestamp)
  | registry (op : RegistryOp)
  | publish (e : Event) (now : Timestamp)
  | finish (i : Nat) (now : Timestamp)
  | drain (now : Timestamp)
  | sweep (now : Timestamp)
  | evictPushes (now : Timestamp)
  | evictRoutes (cutoff : Timestamp)
  | live (f : LiveRoutes → LiveRoutes)

namespace Hub

variable {τ : Type} [Transport τ]

/-- The hub after an operation; an event that is refused leaves it as it was. -/
def step (h : Hub MemoryStore τ) : ServerOp → Hub MemoryStore τ
  | .request node r now => (Api.handle h node now r).2
  | .registry op => { h with courier := h.courier.manage op }
  | .publish e now =>
    match h.publish e now with
    | .ok (_, h) => h
    | .error _ => h
  | .finish i now => { h with courier := h.courier.finish now i }
  | .drain now => h.drain now
  | .sweep now => (h.sweep now).2
  | .evictPushes now => (h.evictPushes now).2
  | .evictRoutes cutoff => (h.evictRoutes cutoff).2
  | .live f => { h with routes := f h.routes }

def run (h : Hub MemoryStore τ) : List ServerOp → Hub MemoryStore τ
  | [] => h
  | op :: ops => (h.step op).run ops

/-! ## What a request does -/

omit [Transport τ] in
theorem publish_eq_ok {h h' : Hub MemoryStore τ} {e : Event} {now : Timestamp} {n : Nat}
    (hpublish : h.publish e now = .ok (n, h')) : ∃ (pushes : List Outgoing) (dedup : DedupCache),
      h' = { h with dedup, courier := h.courier.enqueueAll (pushes.map .push) } := by
  unfold publish route at hpublish
  cases hroute : TransitPush.route h.matcher h.accepted h.dedup e now with
  | error err =>
    rw [hroute] at hpublish
    cases hpublish
  | ok routed =>
    rw [hroute] at hpublish
    cases hpublish
    exact ⟨routed.1, routed.2, rfl⟩

/-- Publishing leaves the registry alone. -/
theorem registry_step_publish (h : Hub MemoryStore τ) (e : Event) (now : Timestamp) :
    (h.step (.publish e now)).registry = h.registry := by
  rw [step]
  split
  · rename_i hpublish
    obtain ⟨pushes, dedup, rfl⟩ := publish_eq_ok hpublish
    rfl
  · rfl

/-- At most one operation on the registry, which is no sweep, and pushes are queued. -/
structure Serves (h h' : Hub MemoryStore τ) : Prop where
  registry : h'.registry = h.registry ∨ ∃ op, h'.registry = (h.courier.manage op).registry
  waiting : ∃ os : List Outgoing, h'.courier.waiting = h.courier.waiting ++ os.map Parcel.push

namespace Serves

omit [Transport τ]

variable {h h' : Hub MemoryStore τ} {now : Timestamp}

theorem refl (h : Hub MemoryStore τ) : h.Serves h :=
  ⟨.inl rfl, [], (List.append_nil _).symm⟩

theorem managed {registry : Registry MemoryStore} (op : RegistryOp)
    (hop : registry = (h.courier.manage op).registry) : h.Serves (h.withRegistry registry) :=
  ⟨.inr ⟨op, hop⟩, [], (List.append_nil _).symm⟩

theorem publish {e : Event} {n : Nat} (hpublish : h.publish e now = .ok (n, h')) : h.Serves h' := by
  obtain ⟨pushes, dedup, rfl⟩ := publish_eq_ok hpublish
  exact ⟨.inl rfl, pushes, rfl⟩

theorem receive (h : Hub MemoryStore τ) (e : Event) (now : Timestamp) :
    h.Serves (h.receive e now).2 := by
  unfold Hub.receive
  dsimp only
  split
  · rename_i hpublish
    obtain ⟨pushes, dedup, rfl⟩ := publish_eq_ok hpublish
    exact ⟨.inl rfl, pushes, rfl⟩
  · exact ⟨.inl rfl, [], (List.append_nil _).symm⟩

theorem put (h : Hub MemoryStore τ) (r : Api.Request) : h.Serves (Api.save h r h.registry.put).2 := by
  unfold Api.save
  split
  · exact .refl h
  · rename_i s hread
    split
    · rename_i hput
      exact managed (.put s) (by rw [Courier.manage, show h.courier.registry.put s = _ from hput])
    · exact .refl h

theorem subscribe (h : Hub MemoryStore τ) (r : Api.Request) :
    h.Serves (Api.save h r h.registry.subscribe).2 := by
  unfold Api.save
  split
  · exact .refl h
  · rename_i s hread
    split
    · rename_i hsub
      exact managed (.subscribe s)
        (by rw [Courier.manage, show h.courier.registry.subscribe s = _ from hsub])
    · exact .refl h

theorem delete (h : Hub MemoryStore τ) (id : Option String) : h.Serves (Api.delete h id).2 := by
  cases id with
  | none => exact .refl h
  | some id =>
    have hremove : h.registry.remove id =
        .ok ((h.registry.store.remove id).1, h.registry.without id) := rfl
    rw [Api.delete, hremove]
    cases (h.registry.store.remove id).1 <;> exact managed (.remove id) rfl

theorem postSituation (h : Hub MemoryStore τ) (r : Api.Request) (now : Timestamp) :
    h.Serves (Api.postSituation h r now).2 := by
  unfold Api.postSituation
  split
  · exact .refl h
  · exact .receive h _ now

theorem postJourney (h : Hub MemoryStore τ) (r : Api.Request) (now : Timestamp) :
    h.Serves (Api.postJourney h r now).2 := by
  unfold Api.postJourney
  split
  · exact .refl h
  · rename_i u hread
    have hreceive := receive h (.journey u) now
    split <;> rename_i hreceived
    all_goals
      rw [hreceived] at hreceive
      exact ⟨hreceive.registry, hreceive.waiting⟩

theorem perform (h : Hub MemoryStore τ) (node : String) (now : Timestamp) (r : Api.Request)
    (method : String) (route : Api.Route) : h.Serves (Api.perform h node now r method route).2 := by
  cases route with
  | health =>
    dsimp only [Api.perform]
    split <;> exact .refl h
  | subscriptions =>
    dsimp only [Api.perform]
    split
    · exact .refl h
    · exact .put h r
    · exact .refl h
  | enveloped =>
    dsimp only [Api.perform]
    split
    · exact .subscribe h r
    · exact .refl h
  | subscription id =>
    dsimp only [Api.perform]
    split
    · exact .refl h
    · exact .delete h id
    · exact .refl h
  | situations =>
    dsimp only [Api.perform]
    split
    · exact .postSituation h r now
    · exact .refl h
  | journeys =>
    dsimp only [Api.perform]
    split
    · exact .postJourney h r now
    · exact .refl h
  | reload =>
    dsimp only [Api.perform]
    split
    · exact managed .reload rfl
    · exact .refl h

theorem handle (h : Hub MemoryStore τ) (node : String) (now : Timestamp) (r : Api.Request) :
    h.Serves (Api.handle h node now r).2 := by
  unfold Api.handle
  split
  · exact .refl h
  · split
    · exact .perform h node now r "GET" _
    · exact .perform h node now r r.method _

end Serves

variable {h : Hub MemoryStore τ}

/-- Every operation of a server lets its registry grow older. -/
theorem ages_step (hs : h.registry.Sound) (op : ServerOp) :
    h.registry.Ages (h.step op).registry := by
  cases op with
  | request node r now =>
    obtain ⟨hsame | ⟨op, hop⟩, -⟩ := Serves.handle h node now r
    · rw [step, hsame]
      exact .refl hs
    · rw [step, hop]
      exact Courier.ages_manage hs op
  | registry op => exact Courier.ages_manage hs op
  | publish e now =>
    rw [registry_step_publish]
    exact .refl hs
  | finish i now => exact Courier.ages_finish hs now i
  | drain now => exact Courier.ages_finishAll hs now
  | sweep now => exact Courier.ages_manage hs (.sweep h.planner now)
  | evictPushes now => exact .refl hs
  | evictRoutes cutoff => exact .refl hs
  | live f => exact .refl hs

theorem ages_run (hs : h.registry.Sound) (ops : List ServerOp) :
    h.registry.Ages (h.run ops).registry := by
  induction ops generalizing h with
  | nil => exact .refl hs
  | cons op ops ih =>
    have hfirst := ages_step hs op
    exact hfirst.trans (ih hfirst.sound)

theorem run_append {ops later : List ServerOp} : h.run (ops ++ later) = (h.run ops).run later := by
  induction ops generalizing h with
  | nil => rfl
  | cons op ops ih => exact ih

end Hub

/-! ## Notices of an end -/

def Parcel.isEndNotice : Parcel → Bool
  | .notice .terminated _ _ => true
  | _ => false

namespace Courier

variable {τ : Type} {c : Courier MemoryStore τ}

def endNotices (c : Courier MemoryStore τ) : List Parcel :=
  c.waiting.filter Parcel.isEndNotice

theorem waiting_terminateAll (now : Timestamp) (ss : List Subscription) :
    (ss.foldl (fun c s => c.terminate now s) c).waiting =
      c.waiting ++ ss.map fun s => s.endNotice now := by
  induction ss generalizing c with
  | nil => exact (List.append_nil _).symm
  | cons s ss ih =>
    refine (ih (c := c.terminate now s)).trans ?_
    rw [show (c.terminate now s).waiting = c.waiting ++ [s.endNotice now] from rfl,
      List.append_assoc]
    rfl

/-- Nothing but a sweep queues anything for the registry. -/
theorem waiting_manage (op : RegistryOp) (hop : ∀ planner now, op ≠ .sweep planner now) :
    (c.manage op).waiting = c.waiting := by
  cases op with
  | sweep planner now => exact absurd rfl (hop planner now)
  | put s =>
    rw [manage]
    split <;> rfl
  | subscribe s =>
    rw [manage]
    split <;> rfl
  | recordSuccess id =>
    rw [manage]
    split <;> rfl
  | _ => rfl

/-- A sweep queues a notice for each subscription that it ends, and then the heartbeats. -/
theorem waiting_sweep (planner : Planner) (now : Timestamp) :
    (c.sweep planner now).2.2.waiting = c.waiting ++
      ((c.sweep planner now).1.terminate.map fun s => s.endNotice now) ++
      (c.sweep planner now).1.heartbeat.map fun s => s.heartbeatNotice now :=
  congrArg (· ++ _) (waiting_terminateAll now _)

theorem endNotices_sweep (planner : Planner) (now : Timestamp) :
    (c.sweep planner now).2.2.endNotices =
      c.endNotices ++ (c.sweep planner now).1.terminate.map fun s => s.endNotice now := by
  have hends : ∀ ss : List Subscription,
      (ss.map fun s => s.endNotice now).filter Parcel.isEndNotice =
        ss.map fun s => s.endNotice now :=
    fun ss => List.filter_eq_self.mpr (by simp [Subscription.endNotice, Parcel.isEndNotice])
  have hbeats : ∀ ss : List Subscription,
      (ss.map fun s => s.heartbeatNotice now).filter Parcel.isEndNotice = [] :=
    fun ss => List.filter_eq_nil_iff.mpr (by simp [Subscription.heartbeatNotice, Parcel.isEndNotice])
  rw [endNotices, waiting_sweep, List.filter_append, List.filter_append, hends, hbeats,
    List.append_nil]
  rfl

variable [Transport τ]

theorem waiting_deliver (now : Timestamp) (p : Parcel) : (c.deliver now p).waiting = c.waiting := by
  have hsent : ∀ post, (c.send post).2.waiting = c.waiting :=
    fun post => by rw [send_else]
  cases p with
  | push o => exact (waiting_settle _ _).1.trans (hsent (o.post now))
  | notice kind address envelope =>
    rw [deliver]
    split
    rename_i after hafter
    exact (congrArg (fun s : Answer × Courier MemoryStore τ => s.2.waiting) hafter.symm).trans
      (hsent _)

theorem waiting_finish (now : Timestamp) (i : Nat) :
    (c.finish now i).waiting.Sublist c.waiting := by
  unfold finish
  split
  · rw [waiting_deliver]
    exact List.eraseIdx_sublist _ _
  · exact List.Sublist.refl _

theorem waiting_finishAll (now : Timestamp) : (c.finishAll now).waiting = [] := by
  have hall : ∀ (ps : List Parcel) (c : Courier MemoryStore τ),
      (ps.foldl (fun c p => c.deliver now p) c).waiting = c.waiting := by
    intro ps
    induction ps with
    | nil => exact fun c => rfl
    | cons p ps ih => exact fun c => (ih (c.deliver now p)).trans (waiting_deliver now p)
  exact hall c.waiting { c with waiting := [] }

end Courier

namespace Hub

variable {τ : Type} [Transport τ] {h : Hub MemoryStore τ}

/-- Who ends in an operation, with the notice that is queued for it. -/
def ended (h : Hub MemoryStore τ) : ServerOp → List (SubscriptionId × Parcel)
  | .registry (.sweep planner now) =>
    (h.courier.sweep planner now).1.terminate.map fun s => (s.id, s.endNotice now)
  | .sweep now => (h.sweep now).1.terminate.map fun s => (s.id, s.endNotice now)
  | _ => []

/-- Of the notices of an end that waited some may be gone, and those of who ends come behind them. -/
theorem endNotices_step (h : Hub MemoryStore τ) (op : ServerOp) :
    ∃ kept, kept.Sublist h.courier.endNotices ∧
      (h.step op).courier.endNotices = kept ++ (h.ended op).map Prod.snd := by
  have hsame : ∀ {c : Courier MemoryStore τ}, c.waiting.Sublist h.courier.waiting →
      ∃ kept, kept.Sublist h.courier.endNotices ∧ c.endNotices = kept ++ [] :=
    fun hsub => ⟨_, hsub.filter _, (List.append_nil _).symm⟩
  have hpushes : ∀ (c : Courier MemoryStore τ) (os : List Outgoing),
      c.waiting = h.courier.waiting ++ os.map Parcel.push →
      ∃ kept, kept.Sublist h.courier.endNotices ∧ c.endNotices = kept ++ [] := by
    intro c os hc
    refine ⟨h.courier.endNotices, List.Sublist.refl _, ?_⟩
    have hnone : (os.map Parcel.push).filter Parcel.isEndNotice = [] :=
      List.filter_eq_nil_iff.mpr (by simp [Parcel.isEndNotice])
    rw [Courier.endNotices, hc, List.filter_append, hnone]
    rfl
  have hsweep : ∀ planner now, ∃ kept, kept.Sublist h.courier.endNotices ∧
      (h.courier.sweep planner now).2.2.endNotices = kept ++
        ((h.courier.sweep planner now).1.terminate.map fun s => (s.id, s.endNotice now)).map
          Prod.snd := by
    intro planner now
    refine ⟨h.courier.endNotices, List.Sublist.refl _, ?_⟩
    rw [Courier.endNotices_sweep, List.map_map]
    rfl
  cases op with
  | request node r now =>
    obtain ⟨-, os, hos⟩ := Serves.handle h node now r
    exact hpushes _ os hos
  | registry op =>
    have hmanage := Courier.waiting_manage (c := h.courier) op
    cases op with
    | sweep planner now => exact hsweep planner now
    | _ => exact hsame (hmanage (by simp) ▸ List.Sublist.refl _)
  | publish e now =>
    rw [step]
    split
    · rename_i hpublish
      obtain ⟨pushes, dedup, rfl⟩ := publish_eq_ok hpublish
      exact hpushes _ pushes rfl
    · exact hsame (List.Sublist.refl _)
  | finish i now => exact hsame (Courier.waiting_finish now i)
  | drain now =>
    have hnone : (h.drain now).courier.waiting = [] := Courier.waiting_finishAll now
    exact hsame (hnone ▸ List.nil_sublist _)
  | sweep now => exact hsweep h.planner now
  | evictPushes now => exact hsame (List.Sublist.refl _)
  | evictRoutes cutoff => exact hsame (List.Sublist.refl _)
  | live f => exact hsame (List.Sublist.refl _)

end Hub
end TransitPush
