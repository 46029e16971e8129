import TransitPush.Proofs.Server.Requests
/-!
# Failed pushes that count

The counter of failed pushes is part of a subscription, so who saves a subscription says what it is.
Pushes that fail go on from there, and a push that succeeds sets it back. How many pushes in a row
failed is another number, and the two agree as long as nobody saves more than was stored.

* `Report.tally`: the counter that a row of reports leads to.
* `Report.failuresInARow`: how many of the last pushes failed.
* `Registry.Counts`: what a log says of a registry. It is kept by saving (`Counts.saved`), by outcomes
  of pushes (`Counts.ended`) and by all that writes no subscription (`Counts.kept`).
* `Hub.failures_counted`: the counter and the removals of a run, told from its log.
-/
namespace TransitPush

/-! ## Reports -/

def Outcome.isFailure : Outcome → Bool
  | .failed _ => true
  | _ => false

/-- What is reported of a subscription: it was saved, and how many failed pushes counted before and
after; a push to it ended; it was dropped for a push that failed. -/
inductive Report where
  | saved (before after : UInt32)
  | ended (o : Outcome)
  | dropped
deriving DecidableEq

namespace Report

/-- The counter after a report. At its greatest value it stays. -/
def counted (n : UInt32) : Report → UInt32
  | saved _ after => after
  | ended (.failed _) => if n.toNat + 1 < UInt32.size then n + 1 else n
  | ended _ => 0
  | dropped => n

def tally (rs : List Report) : UInt32 :=
  rs.foldl counted 0

def outcome? : Report → Option Outcome
  | ended o => some o
  | _ => none

/-- How many of the last pushes failed, whatever was saved between them. -/
def failuresInARow (rs : List Report) : Nat :=
  ((rs.filterMap outcome?).reverse.takeWhile Outcome.isFailure).length

/-- A subscription was saved with more failed pushes than it had. -/
def raises : Report → Bool
  | saved before after => before < after
  | _ => false

/-- Nobody saved more failed pushes than there were. -/
def Modest (rs : List Report) : Prop :=
  ∀ r ∈ rs, r.raises = false

variable {rs : List Report} {r : Report}

theorem tally_append_singleton : tally (rs ++ [r]) = counted (tally rs) r := by
  rw [tally, List.foldl_append]
  rfl

theorem failuresInARow_append_ended {o : Outcome} : failuresInARow (rs ++ [.ended o]) =
    if o.isFailure then failuresInARow rs + 1 else 0 := by
  unfold failuresInARow
  rw [List.filterMap_append, List.reverse_append]
  show (([o] ++ _).takeWhile Outcome.isFailure).length = _
  rw [List.singleton_append, List.takeWhile_cons]
  split <;> rfl

theorem failuresInARow_append_saved {before after : UInt32} :
    failuresInARow (rs ++ [.saved before after]) = failuresInARow rs := by
  simp [failuresInARow, outcome?]

theorem modest_append_singleton : Modest (rs ++ [r]) ↔ Modest rs ∧ r.raises = false := by
  simp [Modest, or_imp, forall_and]

end Report

abbrev ReportLog := List (SubscriptionId × Report)

namespace ReportLog

def about (log : ReportLog) (id : SubscriptionId) : List Report :=
  log.filterMap fun e => if e.1 = id then some e.2 else none

variable {log : ReportLog} {id : SubscriptionId} {r : Report}

theorem about_append_own : about (log ++ [(id, r)]) id = log.about id ++ [r] := by
  simp [about]

theorem about_append_other {i : SubscriptionId} (hne : i ≠ id) :
    about (log ++ [(i, r)]) id = log.about id := by
  simp [about, hne]

/-- Where the last report is not that somebody was dropped, such reports are earlier ones. -/
theorem dropped_before {past : ReportLog} {i : SubscriptionId}
    (hpast : past ++ [(i, .dropped)] <+: log ++ [(id, r)]) (hother : r ≠ .dropped) :
    past ++ [(i, .dropped)] <+: log := by
  rcases List.prefix_concat_iff.mp hpast with heq | hpast
  · have hlast := (List.append_inj' heq rfl).2
    simp only [List.cons.injEq, Prod.mk.injEq, and_true] at hlast
    exact absurd hlast.2.symm hother
  · exact hpast

end ReportLog

/-- A push that failed is one more at most, and one that did not fail leaves none. -/
theorem Report.toNat_counted_le {n : UInt32} {o : Outcome} :
    (counted n (.ended o)).toNat ≤ if o.isFailure then n.toNat + 1 else 0 := by
  cases o with
  | failed status =>
    have hfails : (Outcome.failed status).isFailure = true := rfl
    rw [if_pos hfails, counted]
    split
    · rw [UInt32.toNat_add]
      exact Nat.mod_le _ _
    · exact Nat.le_succ _
  | delivered | reset => exact Nat.le_refl 0

theorem Subscription.failedPushes_countFailure (s : Subscription) (status : Option UInt16) :
    s.countFailure.failedPushes = Report.counted s.failedPushes (.ended (.failed status)) := by
  unfold countFailure Report.counted
  split <;> rfl

/-! ## What a log says of a registry -/

namespace Registry

open Report

variable {r r' : Registry MemoryStore} {s t : Subscription} {id : SubscriptionId}
  {limit : UInt32} {log : ReportLog}

/-- The failed pushes that count for an identifier; none if nobody has it. -/
def failuresOf (r : Registry MemoryStore) (id : SubscriptionId) : UInt32 :=
  ((r.store.subscriptions.get? id).map Subscription.failedPushes).getD 0

def savedReports (r : Registry MemoryStore) :
    Except RegistryError (Subscription × Registry MemoryStore) → ReportLog
  | .ok (t, _) => [(t.id, .saved (r.failuresOf t.id) t.failedPushes)]
  | .error _ => []

def drops (r : Registry MemoryStore) (id : SubscriptionId) (o : Outcome) : Bool :=
  o.isFailure && (SubscriptionStore.get? r.store id).isSome &&
    (SubscriptionStore.get? (r.settled id o).store id).isNone

def endedReports (r : Registry MemoryStore) (id : SubscriptionId) (o : Outcome) : ReportLog :=
  (id, .ended o) :: if r.drops id o then [(id, .dropped)] else []

/-- Who is stored after a push was stored before, and has the failed pushes counted. -/
theorem counted_of_settled (hc : r.store.Consistent) {o : Outcome}
    (hget : (r.settled id o).store.subscriptions.get? id = some t) :
    ∃ s, r.store.subscriptions.get? id = some s ∧
      t.failedPushes = counted s.failedPushes (.ended o) ∧
      (o.isFailure = true → t.failedPushes ≤ r.failureLimit) := by
  have haccount := congrArg Account.subscription (account_settled (k := id) (i := id) hc o)
  rw [if_pos rfl] at haccount
  have hafter := haccount.symm.trans hget
  cases hbefore : r.store.subscriptions.get? id with
  | none => cases o <;> simp [Account.settled, account, hbefore, Account.closed] at hafter
  | some s =>
    refine ⟨s, rfl, ?_⟩
    cases o with
    | delivered =>
      simp only [Account.settled, account, hbefore, Option.map_some, Option.some.injEq] at hafter
      subst hafter
      exact ⟨rfl, fun hfails => absurd hfails Bool.false_ne_true⟩
    | reset => cases hafter
    | failed status =>
      simp only [Account.settled, account, hbefore] at hafter
      split at hafter
      · rename_i hle
        cases hafter
        exact ⟨s.failedPushes_countFailure status, fun _ => hle⟩
      · cases hafter

/-- A subscription is removed for a push that failed if with it more count than are tolerated. -/
theorem removed_iff (hc : r.store.Consistent) (hget : r.store.subscriptions.get? id = some s)
    (status : Option UInt16) :
    (r.settled id (.failed status)).store.subscriptions.get? id = none ↔
      r.failureLimit < counted s.failedPushes (.ended (.failed status)) := by
  have haccount := congrArg Account.subscription
    (account_settled (k := id) (i := id) hc (.failed status))
  rw [if_pos rfl] at haccount
  have hafter : (r.settled id (.failed status)).store.subscriptions.get? id =
      if s.countFailure.failedPushes ≤ r.failureLimit then some s.countFailure else none := by
    refine haccount.trans ?_
    simp only [Account.settled, account, hget]
    split <;> rfl
  rw [hafter, s.failedPushes_countFailure status, ← UInt32.not_le]
  split <;> simp_all

/-- The log says how many failed pushes count for each subscription. If none was saved with more than it
had, these are tolerated and no more than failed in a row; and if it was dropped, more pushes failed in
a row than are tolerated. -/
structure Counts (limit : UInt32) (log : ReportLog) (r : Registry MemoryStore) : Prop where
  failureLimit : r.failureLimit = limit
  tallied : ∀ id s, r.store.subscriptions.get? id = some s → s.failedPushes = tally (log.about id)
  earned : ∀ id s, r.store.subscriptions.get? id = some s → Modest (log.about id) →
    s.failedPushes ≤ limit ∧ s.failedPushes.toNat ≤ failuresInARow (log.about id)
  dropped : ∀ past id, past ++ [(id, .dropped)] <+: log → Modest (ReportLog.about past id) →
    limit.toNat < failuresInARow (ReportLog.about past id)

namespace Counts

theorem empty (hstore : r.store = .empty) : r.Counts r.failureLimit [] where
  failureLimit := rfl
  tallied id s hget := absurd hget (unstored_of_empty hstore id s)
  earned id s hget := absurd hget (unstored_of_empty hstore id s)
  dropped past id hpast := by simp at hpast

/-- What writes no subscription needs no report. -/
theorem kept (h : r.Counts limit log) (hlimit : r'.failureLimit = r.failureLimit)
    (hstored : ∀ id s, r'.store.subscriptions.get? id = some s →
      r.store.subscriptions.get? id = some s) : r'.Counts limit log where
  failureLimit := hlimit.trans h.failureLimit
  tallied id s hget := h.tallied id s (hstored id s hget)
  earned id s hget := h.earned id s (hstored id s hget)
  dropped := h.dropped

/-- Failed pushes that count are tolerated, and no more than failed in a row. -/
theorem earned_failuresOf (h : r.Counts limit log) (hmodest : Modest (log.about id)) :
    r.failuresOf id ≤ limit ∧ (r.failuresOf id).toNat ≤ failuresInARow (log.about id) := by
  unfold failuresOf
  cases hget : r.store.subscriptions.get? id with
  | none => exact ⟨UInt32.zero_le, Nat.zero_le _⟩
  | some s => exact h.earned id s hget hmodest

/-- A subscription is saved. -/
theorem saved (h : r.Counts limit log) (hs : Saved r s t r') :
    r'.Counts limit (log ++ [(t.id, .saved (r.failuresOf t.id) t.failedPushes)]) where
  failureLimit := by
    rw [← h.failureLimit]
    cases hs <;> rfl
  tallied id u hget := by
    rcases hs.saved_or_old hget with ⟨rfl, rfl⟩ | ⟨hne, hbefore⟩
    · rw [ReportLog.about_append_own, tally_append_singleton]
      rfl
    · rw [ReportLog.about_append_other (Ne.symm hne)]
      exact h.tallied id u hbefore
  earned id u hget := by
    rcases hs.saved_or_old hget with ⟨rfl, rfl⟩ | ⟨hne, hbefore⟩
    · rw [ReportLog.about_append_own, failuresInARow_append_saved]
      intro hmodest
      obtain ⟨hpast, hraises⟩ := modest_append_singleton.mp hmodest
      have hle : u.failedPushes ≤ r.failuresOf u.id := by simpa [raises] using hraises
      obtain ⟨htolerated, hrow⟩ := h.earned_failuresOf hpast
      exact ⟨UInt32.le_trans hle htolerated, Nat.le_trans (UInt32.le_iff_toNat_le.mp hle) hrow⟩
    · rw [ReportLog.about_append_other (Ne.symm hne)]
      exact h.earned id u hbefore
  dropped past id hpast := h.dropped past id (ReportLog.dropped_before hpast nofun)

/-- A push ended. -/
theorem settled (h : r.Counts limit log) (hc : r.store.Consistent) (i : SubscriptionId) (o : Outcome) :
    (r.settled i o).Counts limit (log ++ [(i, .ended o)]) where
  failureLimit := (settled_limits hc o).2.trans h.failureLimit
  tallied id t hget := by
    by_cases hid : i = id
    · subst hid
      obtain ⟨s, hbefore, hcounted, -⟩ := counted_of_settled hc hget
      rw [ReportLog.about_append_own, tally_append_singleton, hcounted, h.tallied i s hbefore]
    · rw [ReportLog.about_append_other hid]
      exact h.tallied id t ((Spares.settled hc hid o).get? ▸ hget)
  earned id t hget := by
    by_cases hid : i = id
    · subst hid
      obtain ⟨s, hbefore, hcounted, htolerated⟩ := counted_of_settled hc hget
      rw [ReportLog.about_append_own, failuresInARow_append_ended, ← h.failureLimit]
      intro hmodest
      have hrow := (h.earned i s hbefore (modest_append_singleton.mp hmodest).1).2
      have hle := @toNat_counted_le s.failedPushes o
      rw [← hcounted] at hle
      cases hfails : o.isFailure with
      | true =>
        rw [hfails] at hle
        exact ⟨htolerated hfails, Nat.le_trans hle (Nat.succ_le_succ hrow)⟩
      | false =>
        rw [hfails] at hle
        have hzero : t.failedPushes.toNat = 0 := Nat.le_zero.mp hle
        exact ⟨UInt32.le_iff_toNat_le.mpr (by omega), by omega⟩
    · rw [ReportLog.about_append_other hid]
      exact h.earned id t ((Spares.settled hc hid o).get? ▸ hget)
  dropped past id hpast := h.dropped past id (ReportLog.dropped_before hpast nofun)

/-- Who is stored no more is reported as dropped. -/
theorem drop (h : r.Counts limit log) (hnone : r.store.subscriptions.get? id = none)
    (hrow : Modest (log.about id) → limit.toNat < failuresInARow (log.about id)) :
    r.Counts limit (log ++ [(id, .dropped)]) := by
  have habout : ∀ k s, r.store.subscriptions.get? k = some s →
      ReportLog.about (log ++ [(id, .dropped)]) k = log.about k := by
    intro k s hget
    refine ReportLog.about_append_other fun hid => ?_
    rw [hid, hget] at hnone
    cases hnone
  refine ⟨h.failureLimit, fun k s hget => ?_, fun k s hget => ?_, fun past k hpast => ?_⟩
  · rw [habout k s hget]
    exact h.tallied k s hget
  · rw [habout k s hget]
    exact h.earned k s hget
  · rcases List.prefix_concat_iff.mp hpast with heq | hpast
    · obtain ⟨rfl, hlast⟩ := List.append_inj' heq rfl
      cases hlast
      exact hrow
    · exact h.dropped past k hpast

/-- A push ended, and its subscription may have been dropped for it. -/
theorem ended (h : r.Counts limit log) (hc : r.store.Consistent) (i : SubscriptionId) (o : Outcome) :
    (r.settled i o).Counts limit (log ++ r.endedReports i o) := by
  have hsettled := h.settled hc i o
  unfold endedReports
  cases hdrops : r.drops i o with
  | false => exact hsettled
  | true =>
    simp only [drops, Bool.and_eq_true, Option.isNone_iff_eq_none] at hdrops
    obtain ⟨⟨hfails, hstored⟩, hnone⟩ := hdrops
    obtain ⟨s, hget⟩ := Option.isSome_iff_exists.mp hstored
    rw [if_pos rfl, List.append_cons]
    refine hsettled.drop hnone ?_
    rw [ReportLog.about_append_own, failuresInARow_append_ended, if_pos hfails]
    intro hmodest
    have hrow := (h.earned i s hget (modest_append_singleton.mp hmodest).1).2
    cases o with
    | failed status =>
      have hexceeds := (removed_iff hc hget status).mp hnone
      rw [h.failureLimit, UInt32.lt_iff_toNat_lt] at hexceeds
      have hle := @toNat_counted_le s.failedPushes (.failed status)
      rw [if_pos hfails] at hle
      omega
    | delivered | reset => cases hfails

end Counts
end Registry

/-! ## What operations report -/

namespace Registry

variable {r : Registry MemoryStore} {s : Subscription} {i k : SubscriptionId}

theorem stored_without (hc : r.store.Consistent)
    (hget : (r.without i).store.subscriptions.get? k = some s) :
    r.store.subscriptions.get? k = some s := by
  have haccount := congrArg Account.subscription (account_without (k := k) (i := i) hc)
  have hafter := haccount.symm.trans hget
  split at hafter
  · cases hafter
  · exact hafter

theorem stored_withoutAll (hc : r.store.Consistent) {ss : List Subscription}
    (hget : (ss.foldl (fun r s => r.without s.id) r).store.subscriptions.get? k = some s) :
    r.store.subscriptions.get? k = some s := by
  induction ss generalizing r with
  | nil => exact hget
  | cons first ss ih =>
    exact stored_without hc (ih (Inherits.without hc first.id).consistent hget)

theorem failureLimit_withoutAll (ss : List Subscription) :
    (ss.foldl (fun r s => r.without s.id) r).failureLimit = r.failureLimit := by
  induction ss generalizing r with
  | nil => rfl
  | cons first ss ih => exact ih

end Registry

namespace Courier

open Registry

variable {τ : Type} {c : Courier MemoryStore τ} {limit : UInt32} {log : ReportLog}

def managed (c : Courier MemoryStore τ) : RegistryOp → ReportLog
  | .put s => c.registry.savedReports (c.registry.put s)
  | .subscribe s => c.registry.savedReports (c.registry.subscribe s)
  | .recordSuccess id => c.registry.endedReports id .delivered
  | .recordFailure id => c.registry.endedReports id (.failed none)
  | .remove _ | .reload | .sweep _ _ => []

theorem counts_manage (hc : c.registry.store.Consistent) (h : c.registry.Counts limit log)
    (op : RegistryOp) : (c.manage op).registry.Counts limit (log ++ c.managed op) := by
  cases op with
  | put s =>
    rw [manage, managed]
    cases hput : c.registry.put s with
    | ok saved => exact h.saved (put_eq_ok.mp hput).2
    | error e =>
      rw [savedReports, List.append_nil]
      exact h
  | subscribe s =>
    rw [manage, managed]
    cases hsub : c.registry.subscribe s with
    | ok saved =>
      obtain ⟨_, _, -, -, hs⟩ := subscribe_eq_ok.mp hsub
      exact h.saved hs
    | error e =>
      rw [savedReports, List.append_nil]
      exact h
  | remove id =>
    rw [managed, List.append_nil]
    exact h.kept rfl fun k s hget => stored_without hc hget
  | reload =>
    rw [managed, List.append_nil]
    refine h.kept rfl fun k s hget => ?_
    have hsame : c.registry.store.reload = c.registry.store := hc.reload_eq
    rw [← hsame]
    exact hget
  | recordSuccess id =>
    have hended := h.ended hc id .delivered
    rw [settled_delivered hc] at hended
    rw [manage, recordSuccess_eq hc]
    exact hended
  | recordFailure id => exact h.ended hc id (.failed none)
  | sweep planner now =>
    rw [managed, List.append_nil, manage, registry_sweep]
    exact h.kept (failureLimit_withoutAll _) fun k s hget =>
      stored_withoutAll (r := c.registry.rescheduled planner now) hc hget

variable [Transport τ]

def delivered (c : Courier MemoryStore τ) (now : Timestamp) : Parcel → ReportLog
  | .push o =>
    c.registry.endedReports o.subscription.id (.ofAnswer (c.send (o.post now)).1)
  | .notice _ _ _ => []

def finished (c : Courier MemoryStore τ) (now : Timestamp) (i : Nat) : ReportLog :=
  match c.waiting[i]? with
  | some p => { c with waiting := c.waiting.eraseIdx i }.delivered now p
  | none => []

def deliveredAll (c : Courier MemoryStore τ) (now : Timestamp) : List Parcel → ReportLog
  | [] => []
  | p :: ps => c.delivered now p ++ (c.deliver now p).deliveredAll now ps

theorem counts_deliver (hc : c.registry.store.Consistent) (h : c.registry.Counts limit log)
    (now : Timestamp) (p : Parcel) :
    (c.deliver now p).registry.Counts limit (log ++ c.delivered now p) := by
  cases p with
  | push o =>
    rw [registry_deliver_push]
    exact h.ended hc _ _
  | notice kind address envelope =>
    rw [registry_deliver_notice, delivered, List.append_nil]
    exact h

theorem counts_finish (hc : c.registry.store.Consistent) (h : c.registry.Counts limit log)
    (now : Timestamp) (i : Nat) : (c.finish now i).registry.Counts limit (log ++ c.finished now i) := by
  unfold finish finished
  cases c.waiting[i]? with
  | none =>
    rw [List.append_nil]
    exact h
  | some p => exact counts_deliver (c := { c with waiting := c.waiting.eraseIdx i }) hc h now p

theorem counts_deliverAll (hs : c.registry.Sound) (h : c.registry.Counts limit log)
    (now : Timestamp) (ps : List Parcel) :
    (ps.foldl (fun c p => c.deliver now p) c).registry.Counts limit
      (log ++ c.deliveredAll now ps) := by
  induction ps generalizing c log with
  | nil =>
    rw [deliveredAll, List.append_nil]
    exact h
  | cons p ps ih =>
    rw [deliveredAll, ← List.append_assoc]
    exact ih (ages_deliver hs now p).sound (counts_deliver hs.lawful.consistent h now p)

end Courier

namespace Hub

open Api Report

variable {τ : Type} {limit : UInt32} {log : ReportLog} {h : Hub MemoryStore τ}

def served (h : Hub MemoryStore τ) : Asked → ReportLog
  | .manage op => h.courier.managed op
  | .nothing | .event _ => []

theorem counts_serve (hc : h.registry.store.Consistent) (hcounts : h.registry.Counts limit log)
    (now : Timestamp) (a : Asked) :
    (h.serve now a).registry.Counts limit (log ++ h.served a) := by
  cases a with
  | nothing =>
    rw [served, List.append_nil]
    exact hcounts
  | manage op => exact Courier.counts_manage hc hcounts op
  | event e =>
    rw [served, List.append_nil, registry_serve_event]
    exact hcounts

variable [Transport τ]

/-- The reports of an operation. -/
def reports (h : Hub MemoryStore τ) : ServerOp → ReportLog
  | .request _ r _ => h.served r.asked
  | .registry op => h.courier.managed op
  | .finish i now => h.courier.finished now i
  | .drain now => { h.courier with waiting := [] }.deliveredAll now h.courier.waiting
  | .publish _ _ | .sweep _ | .evictPushes _ | .evictRoutes _ | .live _ => []

def reportLog (h : Hub MemoryStore τ) : List ServerOp → ReportLog
  | [] => []
  | op :: ops => h.reports op ++ (h.step op).reportLog ops

theorem counts_step (hs : h.registry.Sound) (hcounts : h.registry.Counts limit log) (op : ServerOp) :
    (h.step op).registry.Counts limit (log ++ h.reports op) := by
  have hc := hs.lawful.consistent
  cases op with
  | request node r now =>
    show (Api.handle h node now r).2.registry.Counts limit _
    rw [handle_eq_serve]
    exact counts_serve hc hcounts now r.asked
  | registry op => exact Courier.counts_manage hc hcounts op
  | publish e now =>
    rw [reports, List.append_nil, registry_step_publish]
    exact hcounts
  | finish i now => exact Courier.counts_finish hc hcounts now i
  | drain now =>
    exact Courier.counts_deliverAll (c := { h.courier with waiting := [] }) hs hcounts now _
  | sweep now => exact Courier.counts_manage hc hcounts (.sweep h.planner now)
  | evictPushes now | evictRoutes cutoff | live f =>
    rw [reports, List.append_nil]
    exact hcounts

theorem counts_run (hs : h.registry.Sound) (hcounts : h.registry.Counts limit log)
    (ops : List ServerOp) : (h.run ops).registry.Counts limit (log ++ h.reportLog ops) := by
  induction ops generalizing h log with
  | nil =>
    rw [reportLog, List.append_nil]
    exact hcounts
  | cons op ops ih =>
    rw [reportLog, ← List.append_assoc]
    exact ih (ages_step hs op).sound (counts_step hs hcounts op)

/-- **Failed pushes that count.** Over every run from an empty store: the counter of a stored
subscription is what its reports come to, and another push that fails removes it exactly if the counter
then exceeds the limit. As long as nobody saves it with a greater counter than it had, the counter
exceeds neither the limit nor the number of its last pushes that all failed; and if it is dropped, more
of its pushes failed in a row than are tolerated. -/
theorem failures_counted (hstore : h.store = .empty) (hschedule : h.registry.schedule = ∅)
    (hids : h.registry.ids.Proper) (ops : List ServerOp) :
    let limit := h.registry.failureLimit
    let log := h.reportLog ops
    let after := (h.run ops).registry
    (∀ id s, SubscriptionStore.get? after.store id = some s →
      s.failedPushes = tally (log.about id) ∧
      (∀ status, SubscriptionStore.get? (after.settled id (.failed status)).store id = none ↔
        limit < tally (log.about id ++ [.ended (.failed status)])) ∧
      (Modest (log.about id) →
        s.failedPushes ≤ limit ∧ s.failedPushes.toNat ≤ failuresInARow (log.about id))) ∧
    ∀ past id, past ++ [(id, .dropped)] <+: log → Modest (ReportLog.about past id) →
      limit.toNat < failuresInARow (ReportLog.about past id) := by
  intro limit log after
  have hsound : h.registry.Sound := .empty hstore hschedule hids
  have hcounts : after.Counts limit log := counts_run hsound (.empty hstore) ops
  have hc : after.store.Consistent := (ages_run hsound ops).sound.lawful.consistent
  refine ⟨fun id s hget => ?_, hcounts.dropped⟩
  have htallied := hcounts.tallied id s hget
  refine ⟨htallied, fun status => ?_, hcounts.earned id s hget⟩
  rw [tally_append_singleton, ← htallied, ← hcounts.failureLimit]
  exact Registry.removed_iff hc hget status

/-- A server whose pushes of situations to one address fail. -/
def failing : Hub MemoryStore PlayedTransport :=
  { vacant with courier := { Courier.idle with
      registry := { Courier.idle.registry with failureLimit := defaultFailureLimit }
      transport := PlayedTransport.empty.withAnswers "http://a/sx" (.replicate 4 (.ok 500)) } }

/-- A request that a subscription be saved, with more members than its address and codespace. -/
def savingWith (members : String) : ServerOp :=
  .request "" (posting "/subscriptions"
    ("\x7b\"pushAddress\":\"http://a\",\"codespaces\":[\"NSB\"]" ++ members ++ "\x7d")) .epoch

def stopClosed : ServerOp :=
  .request "" (posting "/events/situations"
    ("\x7b\"situationNumber\":\"1\",\"version\":1,\"participantRef\":\"NSB\"," ++
      "\"affects\":\x7b\"stopPlaces\":[\x7b\"stopPlaceRef\":\"NSR:StopPlace:1\"\x7d]\x7d\x7d")) .epoch

/-- Who brings failed pushes along is dropped for the first push that fails. -/
theorem failures_broughtAlong :
    let ops := [savingWith ",\"failedPushCounter\":3", stopClosed, .finish 0 .epoch]
    (failing.run (ops.take 1)).registry.failuresOf "i" = 3 ∧
    failing.reportLog ops =
      [("i", .saved 0 3), ("i", .ended (.failed (some 500))), ("i", .dropped)] ∧
    failuresInARow ((failing.reportLog ops).about "i") = 1 ∧ failing.registry.failureLimit = 3 := by
  decide +kernel

/-- A push fails, the subscription is saved as it is shown then, and three more pushes fail. -/
def stillFailing : List ServerOp :=
  [savingWith "", stopClosed, .finish 0 .epoch, savingWith ",\"id\":\"i\",\"failedPushCounter\":1",
    .registry (.recordFailure "i"), .registry (.recordFailure "i"), .registry (.recordFailure "i")]

theorem failures_counted_stillFailing :
    let log := failing.reportLog stillFailing
    log = [("i", .saved 0 0), ("i", .ended (.failed (some 500))), ("i", .saved 1 1)] ++
      .replicate 3 ("i", .ended (.failed none)) ++ [("i", .dropped)] ∧
    (failing.run (stillFailing.take 6)).registry.failuresOf "i" = 3 ∧
    defaultFailureLimit.toNat < failuresInARow (ReportLog.about (log.take 6) "i") := by
  intro log
  have hlog : log = [("i", .saved 0 0), ("i", .ended (.failed (some 500))), ("i", .saved 1 1)] ++
      .replicate 3 ("i", .ended (.failed none)) ++ [("i", .dropped)] := by decide +kernel
  obtain ⟨-, hdropped⟩ := failures_counted (h := failing) rfl rfl Supply.tally_proper stillFailing
  have hpast : log.take 6 ++ [("i", .dropped)] <+: log := by
    rw [hlog]
    exact List.prefix_rfl
  have hmodest : Modest (ReportLog.about (log.take 6) "i") := by
    rw [hlog]
    unfold Modest
    decide
  exact ⟨hlog, by decide +kernel, hdropped (log.take 6) "i" hpast hmodest⟩

end Hub
end TransitPush
