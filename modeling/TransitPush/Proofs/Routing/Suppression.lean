import TransitPush.Proofs.Routing.HubRun
import TransitPush.Proofs.Time.Clock
/-!
# Repeated pushes

The record of pushes forgets: a fingerprint has one time, the last, and evictions drop what is old.
Still it tells at any time exactly which pushes of the whole past are less than `ttl` old, because
time goes on and evictions drop nothing that is.

* `DedupCache.Recalls`: what the record knows of the log of all pushes.
* `DedupCache.Recalls.record`, `DedupCache.Recalls.evict`: pushes and evictions keep it.
* `HubOp.recalls_run`: it holds of the hub after every orderly run.
* `HubOp.log_apart`: pushes with one fingerprint lie `ttl` apart.
* `HubOp.run_unevicted`: without its evictions a run is the same but for the record.
* `Hub.suppression_exact`: all of it, for every orderly run from an empty record.
-/
namespace TransitPush

/-! ## Record and log -/

/-- The clock may show a time after those past. -/
structure Timestamp.Follows (t : Timestamp) (past : List Timestamp) : Prop where
  noLeap : t.isLeap = false
  after : ∀ u ∈ past, u ≤ t

/-- A record and the log of all pushes, after some past times. What the record has was logged, what
was logged is past, and what was logged less than `ttl` before a time to come is recent then. -/
structure DedupCache.Recalls (c : DedupCache) (log : List LoggedPush) (past : List Timestamp) :
    Prop where
  logged : ∀ key at_, c.sent.get? key = some at_ → ⟨key, at_⟩ ∈ log
  made : ∀ p ∈ log, p.time ∈ past
  recent : ∀ p ∈ log, ∀ t : Timestamp, t.Follows past → t.since p.time < c.ttl →
    c.sent.isRecent p.mark t c.ttl = true

namespace DedupCache.Recalls

variable {c : DedupCache} {log : List LoggedPush} {past : List Timestamp} {now t : Timestamp}

theorem isRecent_iff (hr : c.Recalls log past) (ht : t.Follows past) {key : String} :
    c.sent.isRecent key t c.ttl = true ↔ ∃ at_, ⟨key, at_⟩ ∈ log ∧ t.since at_ < c.ttl := by
  constructor
  · intro hrecent
    obtain ⟨at_, hget, hsince⟩ := TimestampMap.isRecent_iff.mp hrecent
    exact ⟨at_, hr.logged key at_ hget, hsince⟩
  · intro hlogged
    obtain ⟨at_, hlog, hsince⟩ := hlogged
    exact hr.recent _ hlog t ht hsince

theorem empty {ttl : Interval} {fresh : Supply} : (DedupCache.empty ttl fresh).Recalls [] [] where
  logged key at_ hget := by
    rw [DedupCache.empty, Table.get?_emptyCollection] at hget
    cases hget
  made p hp := by cases hp
  recent p hp := by cases hp

theorem follows_prior (ht : t.Follows (past ++ [now])) : t.Follows past ∧ now ≤ t :=
  ⟨⟨ht.noLeap, fun u hu => ht.after u (List.mem_append_left _ hu)⟩,
    ht.after now (List.mem_append_right _ List.mem_cons_self)⟩

/-- A fingerprint that is entered again stays recent for longer. -/
theorem record (hr : c.Recalls log past) (hpast : ∀ u ∈ past, u.isLeap = false)
    (hnow : now.Follows past) (keys : List String) (n : Nat) :
    (c.recorded now keys n).Recalls (log ++ keys.map fun key => ⟨key, now⟩) (past ++ [now]) where
  logged key at_ hget := by
    rw [recorded, TimestampMap.get?_enter] at hget
    split at hget
    · rename_i hkey
      cases hget
      exact List.mem_append_right _ (List.mem_map.mpr ⟨key, hkey, rfl⟩)
    · exact List.mem_append_left _ (hr.logged key at_ hget)
  made p hp := by
    rcases List.mem_append.mp hp with hold | hnew
    · exact List.mem_append_left _ (hr.made p hold)
    · obtain ⟨key, -, rfl⟩ := List.mem_map.mp hnew
      exact List.mem_append_right _ List.mem_cons_self
  recent p hp t ht hsince := by
    obtain ⟨hprior, hle⟩ := follows_prior ht
    rw [recorded] at hsince ⊢
    rw [TimestampMap.isRecent_enter]
    rcases List.mem_append.mp hp with hold | hnew
    · split
      · have hpushed := hr.made p hold
        have hless := Timestamp.since_le_since (hpast _ hpushed) hnow.noLeap ht.noLeap
          (hnow.after _ hpushed)
        exact decide_eq_true (Int.lt_of_le_of_lt hless hsince)
      · exact hr.recent p hold t hprior hsince
    · obtain ⟨key, hkey, rfl⟩ := List.mem_map.mp hnew
      rw [if_pos hkey]
      exact decide_eq_true hsince

/-- What an eviction drops is no longer recent. -/
theorem evict (hr : c.Recalls log past) (hpast : ∀ u ∈ past, u.isLeap = false)
    (hnow : now.Follows past) : (c.evictExpired now).2.Recalls log (past ++ [now]) := by
  have hmade : ∀ p ∈ log, p.time ∈ past ++ [now] :=
    fun p hp => List.mem_append_left _ (hr.made p hp)
  unfold evictExpired
  split
  · exact ⟨hr.logged, hmade, fun p hp t ht => hr.recent p hp t (follows_prior ht).1⟩
  · rename_i cutoff hcutoff
    refine ⟨fun key at_ hget => ?_, hmade, fun p hp t ht hsince => ?_⟩
    · rw [TimestampMap.get?_retainFrom] at hget
      exact hr.logged key at_ (Option.filter_eq_some_iff.mp hget).1
    · obtain ⟨hprior, hle⟩ := follows_prior ht
      obtain ⟨at_, hget, hrecent⟩ := TimestampMap.isRecent_iff.mp (hr.recent p hp t hprior hsince)
      have hleap := hpast _ (hr.made _ (hr.logged _ at_ hget))
      have hkept : cutoff ≤ at_ := by
        by_contra hold
        exact Timestamp.outside_of_cutoff hnow.noLeap hleap ht.noLeap hle hcutoff hold hrecent
      refine TimestampMap.isRecent_iff.mpr ⟨at_, ?_, hrecent⟩
      rw [TimestampMap.get?_retainFrom]
      exact Option.filter_eq_some_iff.mpr ⟨hget, decide_eq_true hkept⟩

end DedupCache.Recalls

/-! ## Runs -/

namespace HubOp

variable {τ : Type} {h : Hub MemoryStore τ} {ttl : Interval} {fresh : Supply}
  {ops later : List HubOp}

theorem Orderly.follows (ho : Orderly (ops ++ later)) {t : Timestamp} (ht : t ∈ times later) :
    t.Follows (times ops) := by
  have hascending := ho.ascending
  rw [times_append] at hascending
  obtain ⟨-, -, hcross⟩ := List.pairwise_append.mp hascending
  refine ⟨ho.noLeap t ?_, fun u hu => hcross u hu t ht⟩
  rw [times_append]
  exact List.mem_append_right _ ht

/-- Each operation keeps the record and the log together. -/
theorem recalls_apply {log : List LoggedPush} {past : List Timestamp} (hn : h.store.Named)
    (hr : h.dedup.Recalls log past) (hpast : ∀ u ∈ past, u.isLeap = false) (op : HubOp)
    (htime : ∀ t ∈ times [op], t.Follows past) :
    (op.apply h).2.dedup.Recalls (log ++ op.pushed h) (past ++ times [op]) := by
  cases op with
  | route e now =>
    have hnow : now.Follows past := htime now List.mem_cons_self
    have hnext := hr.record hpast hnow
      ((h.dedup.due now (h.lookedUp e)).map Marked.mark) (h.lookedUp e).length
    rw [List.map_map] at hnext
    rw [apply_route hn, pushed_route hn]
    exact hnext
  | evict now =>
    have hnow : now.Follows past := htime now List.mem_cons_self
    have hlog : log ++ (evict now).pushed h = log := List.append_nil log
    rw [hlog]
    exact hr.evict hpast hnow
  | store op =>
    have hlog : log ++ (store op).pushed h = log := List.append_nil log
    have hpast' : past ++ times [store op] = past := List.append_nil past
    rw [hlog, hpast']
    exact hr
  | live f =>
    have hlog : log ++ (live f).pushed h = log := List.append_nil log
    have hpast' : past ++ times [live f] = past := List.append_nil past
    rw [hlog, hpast']
    exact hr

theorem recalls_run (hstore : h.store = MemoryStore.empty) (hdedup : h.dedup = .empty ttl fresh)
    (ho : Orderly ops) : (run h ops).dedup.Recalls (log h ops) (times ops) := by
  induction ops using List.reverseRecOn with
  | nil =>
    rw [run, hdedup]
    exact DedupCache.Recalls.empty
  | append_singleton ops op ih =>
    have hstep := recalls_apply (run_named hstore ho.prior) (ih ho.prior) ho.prior.noLeap op
      fun t ht => ho.follows ht
    rw [run_append, log_append, times_append, run, run, log, log, List.append_nil]
    exact hstep

/-- A copy is due exactly if no push with its fingerprint was made less than `ttl` before. -/
theorem mem_due_run (hstore : h.store = MemoryStore.empty) (hdedup : h.dedup = .empty ttl fresh)
    {e : Event} {now : Timestamp} (ho : Orderly (ops ++ route e now :: later)) {ms : List Marked}
    {m : Marked} : m ∈ (run h ops).dedup.due now ms ↔
      m ∈ ms ∧ ¬ ∃ at_, ⟨m.mark, at_⟩ ∈ log h ops ∧ now.since at_ < ttl.toDelta := by
  have hr := recalls_run hstore hdedup ho.prior
  have hnow : now.Follows (times ops) := ho.follows List.mem_cons_self
  have httl : (run h ops).dedup.ttl = ttl.toDelta := by
    rw [(run_settings hstore ho.prior).2, hdedup, DedupCache.empty]
  rw [DedupCache.due, List.mem_filter, Bool.not_eq_true', ← httl, ← hr.isRecent_iff hnow,
    Bool.not_eq_true]

/-- Pushes with one fingerprint lie at least `ttl` apart. -/
theorem log_apart (hstore : h.store = MemoryStore.empty) (hdedup : h.dedup = .empty ttl fresh)
    (ho : Orderly ops) : (log h ops).Pairwise
      fun a b => a.mark = b.mark → ttl.toDelta ≤ b.time.since a.time := by
  induction ops using List.reverseRecOn with
  | nil => exact List.Pairwise.nil
  | append_singleton ops op ih =>
    rw [log_append, log, log, List.append_nil, List.pairwise_append]
    have hn := run_named hstore ho.prior
    cases op with
    | route e now =>
      rw [pushed_route hn]
      refine ⟨ih ho.prior, ?_, fun a ha b hb hmark => ?_⟩
      · have hmarks := List.pairwise_map.mp (Hub.marks_nodup (e := e) hn)
        have hdistinct : ((run h ops).dedup.due now ((run h ops).lookedUp e)).Pairwise
            fun a b => a.mark ≠ b.mark :=
          hmarks.sublist (List.filter_sublist.trans Hub.lookedUp_sublist)
        exact List.pairwise_map.mpr (hdistinct.imp fun hne hsame => absurd hsame hne)
      · obtain ⟨m, hm, rfl⟩ := List.mem_map.mp hb
        obtain ⟨-, hnone⟩ := (mem_due_run hstore hdedup ho).mp hm
        have hlogged : ⟨m.mark, a.time⟩ ∈ log h ops := (show a.mark = m.mark from hmark) ▸ ha
        exact Int.not_lt.mp fun hless => hnone ⟨a.time, hlogged, hless⟩
    | evict _ | store _ | live _ =>
      exact ⟨ih ho.prior, List.Pairwise.nil, fun a ha b hb => by cases hb⟩

end HubOp

/-! ## Runs without evictions -/

def Hub.withSent {τ : Type} (h : Hub MemoryStore τ) (sent : TimestampMap) : Hub MemoryStore τ :=
  { h with dedup := { h.dedup with sent } }

namespace HubOp

variable {τ : Type} {h : Hub MemoryStore τ} {ttl : Interval} {fresh : Supply} {ops : List HubOp}

def unevicted (ops : List HubOp) : List HubOp :=
  ops.filter fun op => !op.isEvict

theorem storeOps_unevicted : storeOps (unevicted ops) = storeOps ops := by
  rw [storeOps, unevicted, List.filterMap_filter]
  refine List.filterMap_congr fun op _ => ?_
  cases op <;> rfl

theorem times_unevicted : (times (unevicted ops)).Sublist (times ops) :=
  List.filter_sublist.filterMap time?

theorem Orderly.unevicted (ho : Orderly ops) : Orderly (unevicted ops) := by
  refine ⟨ho.ascending.sublist times_unevicted,
    fun t ht => ho.noLeap t (times_unevicted.subset ht), ?_, ?_⟩
  · rw [storeOps_unevicted]
    exact ho.fresh
  · rw [storeOps_unevicted]
    exact ho.plain

/-- An eviction changes nothing but the times in the record. -/
theorem apply_evict_withSent (now : Timestamp) (sent : TimestampMap) :
    ((evict now).apply h).2.withSent sent = h.withSent sent := by
  have hrest : ∀ c : DedupCache,
      { (c.evictExpired now).2 with sent } = ({ c with sent } : DedupCache) := by
    intro c
    unfold DedupCache.evictExpired
    split <;> rfl
  exact congrArg (fun dedup => { h with dedup }) (hrest h.dedup)

/-- Two records that agree on what is recent at the time of an operation give the same answer. -/
theorem apply_withSent (hn : h.store.Named) (sent : TimestampMap) (op : HubOp)
    (hevict : op.isEvict = false)
    (hsame : ∀ t ∈ times [op], ∀ key,
      sent.isRecent key t h.dedup.ttl = h.dedup.sent.isRecent key t h.dedup.ttl) :
    (∃ sent', op.apply (h.withSent sent) = ((op.apply h).1, (op.apply h).2.withSent sent')) ∧
      op.pushed (h.withSent sent) = op.pushed h := by
  cases op with
  | route e now =>
    have hn' : (h.withSent sent).store.Named := hn
    have hdue : (h.withSent sent).dedup.due now ((h.withSent sent).lookedUp e) =
        h.dedup.due now (h.lookedUp e) :=
      List.filter_congr fun m _ => congrArg _ (hsame now List.mem_cons_self m.mark)
    rw [apply_route hn, apply_route hn', pushed_route hn, pushed_route hn', hdue]
    exact ⟨⟨_, rfl⟩, rfl⟩
  | evict now => cases hevict
  | store op => exact ⟨⟨sent, rfl⟩, rfl⟩
  | live f => exact ⟨⟨sent, rfl⟩, rfl⟩

theorem isEvicted_apply (op : HubOp) : (op.apply h).1.isEvicted = op.isEvict := by
  cases op with
  | route e now =>
    rw [apply]
    split <;> rfl
  | evict _ | store _ | live _ => rfl

/-- Without its evictions a run leads to the same hub but for the times in the record, makes the same
pushes and gives the same answers to all other operations. -/
theorem run_unevicted (hstore : h.store = MemoryStore.empty) (hdedup : h.dedup = .empty ttl fresh)
    (ho : Orderly ops) : (∃ sent, run h (unevicted ops) = (run h ops).withSent sent) ∧
      log h (unevicted ops) = log h ops ∧
      answers h (unevicted ops) = (answers h ops).filter fun a => !a.isEvicted := by
  induction ops using List.reverseRecOn with
  | nil => exact ⟨⟨h.dedup.sent, rfl⟩, rfl, rfl⟩
  | append_singleton ops op ih =>
    obtain ⟨⟨sent, hrun⟩, hlog, hanswers⟩ := ih ho.prior
    have hn := run_named hstore ho.prior
    have hsplit : unevicted (ops ++ [op]) = unevicted ops ++ unevicted [op] := List.filter_append _ _
    have hanswer : answers (run h ops) [op] = [(op.apply (run h ops)).1] := rfl
    rw [hsplit, run_append, run_append, log_append, log_append, answers_append, answers_append,
      List.filter_append, hrun, hlog, hanswers, hanswer]
    cases hevict : op.isEvict with
    | true =>
      have hnone : unevicted [op] = [] := by simp [unevicted, hevict]
      obtain ⟨now, rfl⟩ : ∃ now, op = evict now := by
        cases op with
        | evict now => exact ⟨now, rfl⟩
        | route _ _ | store _ | live _ => cases hevict
      rw [hnone]
      refine ⟨⟨sent, (apply_evict_withSent now sent).symm⟩, rfl, ?_⟩
      rfl
    | false =>
      have hone : unevicted [op] = [op] := by simp [unevicted, hevict]
      have hkept := recalls_run hstore hdedup ho.prior.unevicted
      have hall := recalls_run hstore hdedup ho.prior
      rw [hrun, hlog] at hkept
      have hsame : ∀ t ∈ times [op], ∀ key, sent.isRecent key t (run h ops).dedup.ttl =
          (run h ops).dedup.sent.isRecent key t (run h ops).dedup.ttl := by
        intro t ht key
        have hfollows := ho.follows ht
        have hfollows' : t.Follows (times (unevicted ops)) :=
          ⟨hfollows.noLeap, fun u hu => hfollows.after u (times_unevicted.subset hu)⟩
        rw [Bool.eq_iff_iff, hall.isRecent_iff hfollows]
        exact hkept.isRecent_iff hfollows'
      obtain ⟨⟨sent', happly⟩, hpushed⟩ := apply_withSent hn sent op hevict hsame
      rw [hone, run, run, run, run, log, log, log, log, answers, answers, happly, hpushed]
      refine ⟨⟨sent', rfl⟩, rfl, ?_⟩
      simp [isEvicted_apply, hevict]

end HubOp

/-! ## One fingerprint in any order of times -/

structure SendCall where
  id : SubscriptionId
  event : Event
  now : Timestamp

/-- The fingerprint of a question, its time and the answer. -/
structure SendAnswer where
  mark : String
  time : Timestamp
  send : Bool

namespace DedupCache

variable {c : DedupCache} {key : String} {call : SendCall} {calls : List SendCall}

/-- The answers to questions in turn. -/
def sends (c : DedupCache) : List SendCall → List SendAnswer
  | [] => []
  | call :: calls =>
    let mark := fingerprint (c.fresh.name c.fresh.drawn) call.id call.event
    let (send, next) := c.shouldSend call.id call.event call.now
    ⟨mark, call.now, send⟩ :: next.sends calls

def sendsOf (c : DedupCache) (key : String) (calls : List SendCall) : List SendAnswer :=
  (c.sends calls).filter fun a => a.mark = key

theorem sendsOf_cons : c.sendsOf key (call :: calls) =
    let mark := fingerprint (c.fresh.name c.fresh.drawn) call.id call.event
    let recent := c.sent.isRecent mark call.now c.ttl
    let later := (c.recorded call.now (if recent then [] else [mark]) 1).sendsOf key calls
    if mark = key then ⟨mark, call.now, !recent⟩ :: later else later := by
  rw [sendsOf, sends, shouldSend_eq, List.filter_cons]
  simp only [decide_eq_true_eq, sendsOf]

/-- A question about another fingerprint leaves the time of this one as it is. -/
theorem get?_recorded_other {mark : String} (recent : Bool) {now : Timestamp} (n : Nat)
    (h : mark ≠ key) : (c.recorded now (if recent then [] else [mark]) n).sent.get? key =
      c.sent.get? key := by
  rw [recorded, TimestampMap.get?_enter, if_neg]
  cases recent with
  | true => exact List.not_mem_nil
  | false => exact fun hmem => h (List.mem_singleton.mp hmem).symm

/-- As long as all questions about a fingerprint fall within `ttl` of the time recorded, none is
answered by a push. -/
theorem sendsOf_withheld {at_ : Timestamp} (hget : c.sent.get? key = some at_)
    (hclose : ∀ a ∈ c.sendsOf key calls, a.time.since at_ < c.ttl) :
    ∀ a ∈ c.sendsOf key calls, a.send = false := by
  induction calls generalizing c with
  | nil =>
    intro a ha
    cases ha
  | cons call calls ih =>
    rw [sendsOf_cons] at hclose ⊢
    generalize fingerprint (c.fresh.name c.fresh.drawn) call.id call.event = mark at hclose ⊢
    dsimp only at hclose ⊢
    by_cases hmark : mark = key
    · subst hmark
      rw [if_pos rfl] at hclose ⊢
      obtain ⟨hnow, hlater⟩ := List.forall_mem_cons.mp hclose
      have hrecent : c.sent.isRecent mark call.now c.ttl = true :=
        TimestampMap.isRecent_iff.mpr ⟨at_, hget, hnow⟩
      rw [hrecent] at hlater ⊢
      exact List.forall_mem_cons.mpr ⟨rfl, ih (c := c.recorded call.now [] 1) hget hlater⟩
    · rw [if_neg hmark] at hclose ⊢
      exact ih ((get?_recorded_other _ 1 hmark).trans hget) hclose

/-- Questions about one fingerprint whose times lie less than `ttl` apart, in whatever order, are
answered by one push in all, the first. -/
theorem sendsOf_once (hget : c.sent.get? key = none)
    (hclose : (c.sendsOf key calls).Pairwise
      fun a b => a.time.since b.time < c.ttl ∧ b.time.since a.time < c.ttl)
    (hsome : c.sendsOf key calls ≠ []) : (c.sendsOf key calls).countP SendAnswer.send = 1 := by
  induction calls generalizing c with
  | nil => exact absurd rfl hsome
  | cons call calls ih =>
    rw [sendsOf_cons] at hclose hsome ⊢
    generalize fingerprint (c.fresh.name c.fresh.drawn) call.id call.event = mark
      at hclose hsome ⊢
    dsimp only at hclose hsome ⊢
    by_cases hmark : mark = key
    · subst hmark
      rw [if_pos rfl] at hclose ⊢
      have hrecent : c.sent.isRecent mark call.now c.ttl = false := by
        rw [TimestampMap.isRecent_eq_false, hget]
        intro at_ hsome
        cases hsome
      rw [hrecent] at hclose ⊢
      have hnow : (c.recorded call.now [mark] 1).sent.get? mark = some call.now := by
        rw [recorded, TimestampMap.get?_enter, if_pos List.mem_cons_self]
      obtain ⟨hfirst, -⟩ := List.pairwise_cons.mp hclose
      have hlater := sendsOf_withheld hnow fun a ha => (hfirst a ha).2
      rw [List.countP_cons_of_pos rfl, List.countP_eq_zero.mpr]
      intro a ha
      rw [hlater a ha]
      exact Bool.false_ne_true
    · rw [if_neg hmark] at hclose hsome ⊢
      exact ih ((get?_recorded_other _ 1 hmark).trans hget) hclose hsome

end DedupCache

/-! ## Exactness -/

/-- **Suppression.** In every orderly run of a hub without subscriptions and with an empty record, for
every `ttl`, a copy of a routed event is withheld exactly if an earlier event led to a push with the
same fingerprint less than `ttl` before. So pushes with one fingerprint lie at least `ttl` apart, and
leaving out all evictions changes none of the other answers. Of questions about one fingerprint at
times that lie less than `ttl` apart, in whatever order, exactly one is answered by a push. -/
theorem Hub.suppression_exact {τ : Type} (h : Hub MemoryStore τ)
    (hstore : h.store = MemoryStore.empty) (ttl : Interval) (fresh : Supply)
    (hdedup : h.dedup = .empty ttl fresh) (ops : List HubOp) (hops : HubOp.Orderly ops) :
    (∀ before e now after, ops = before ++ .route e now :: after →
      ¬ e.Malformed → e.Accepted h.accepted →
      let g := HubOp.run h before
      ∃ pushes g', g.route e now = .ok (pushes, g') ∧
        (∀ o ∈ pushes, o ∈ (g.candidates e).map Marked.outgoing) ∧
        ∀ m ∈ g.candidates e, (¬ m.outgoing ∈ pushes ↔
          ∃ at_, ⟨m.mark, at_⟩ ∈ HubOp.log h before ∧ now.since at_ < ttl.toDelta)) ∧
    (HubOp.log h ops).Pairwise
      (fun a b => a.mark = b.mark → ttl.toDelta ≤ b.time.since a.time) ∧
    HubOp.answers h (HubOp.unevicted ops) =
      (HubOp.answers h ops).filter (fun a => !a.isEvicted) ∧
    ∀ key calls,
      (h.dedup.sendsOf key calls).Pairwise
        (fun a b => a.time.since b.time < ttl.toDelta ∧ b.time.since a.time < ttl.toDelta) →
      h.dedup.sendsOf key calls ≠ [] →
      (h.dedup.sendsOf key calls).countP SendAnswer.send = 1 := by
  refine ⟨?_, HubOp.log_apart hstore hdedup hops, (HubOp.run_unevicted hstore hdedup hops).2.2, ?_⟩
  · rintro before e now after rfl hm ha g
    have hn : g.store.Named := HubOp.run_named hstore hops.prior
    have haccepted : g.accepted = h.accepted := (HubOp.run_settings hstore hops.prior).1
    refine ⟨_, _, route_eq hn hm (haccepted ▸ ha), fun o ho => ?_, fun m hmem => ?_⟩
    · exact (List.filter_sublist.map Marked.outgoing).subset ho
    · rw [outgoing_mem_due hn hmem, HubOp.mem_due_run hstore hdedup hops]
      simp only [hmem, true_and, not_not]
  · intro key calls hclose hsome
    have httl : h.dedup.ttl = ttl.toDelta := by rw [hdedup, DedupCache.empty]
    have hnone : h.dedup.sent.get? key = none := by
      rw [hdedup, DedupCache.empty, Table.get?_emptyCollection]
    rw [← httl] at hclose
    exact DedupCache.sendsOf_once hnone hclose hsome

def oneSecondHub : Hub MemoryStore PlayedTransport where
  courier := ⟨⟨.empty, ∅, ⟨toString, 0⟩, 3⟩, .empty, ∅, []⟩
  topology := .empty
  routes := ∅
  dedup := .empty (.ofSeconds 1) ⟨toString, 0⟩
  accepted := []
  planner := .ofInterval Planner.defaultCheckInterval

/-- The closed quay three times: at once, a nanosecond before the second is over, and when it is,
right after an eviction. -/
def closedQuayAgain : List HubOp :=
  let start : Timestamp := .epoch
  let before : Timestamp := ⟨0, 999999999, by decide⟩
  let after : Timestamp := ⟨1, 0, by decide⟩
  fourSubscribers.map .store ++
    [.route (.situation closedQuay) start, .evict start, .route (.situation closedQuay) before,
      .evict after, .route (.situation closedQuay) after]

theorem Hub.suppression_exact_closedQuayAgain :
    HubOp.Orderly closedQuayAgain ∧
    (HubOp.log oneSecondHub closedQuayAgain).map (fun p => (p.mark, p.time.second)) =
      [("2_1_1", 0), ("3_1_1", 0), ("2_1_1", 1), ("3_1_1", 1)] ∧
    HubOp.answers oneSecondHub (HubOp.unevicted closedQuayAgain) =
      (HubOp.answers oneSecondHub closedQuayAgain).filter (fun a => !a.isEvicted) := by
  have hops : HubOp.Orderly closedQuayAgain :=
    ⟨by decide, by decide, by decide, by decide⟩
  obtain ⟨-, -, hanswers, -⟩ :=
    suppression_exact oneSecondHub rfl (.ofSeconds 1) _ rfl closedQuayAgain hops
  exact ⟨hops, by decide, hanswers⟩

end TransitPush
