import Mathlib.Data.List.Induction
import TransitPush.Proofs.Delivery.SweepRun
/-!
# Heartbeats over many sweeps

A subscription goes through the heartbeats of a sweep if the sweep lists it, does not terminate it,
and it has an interval. The schedule holds one time for it, but that time says all that matters of the
sweeps before: which of them scheduled it last, and with which interval.

* `Sweeper.log`: the sweeps of a run that took a subscription through the heartbeats.
* `Sweeper.entry_run`: the entry in the schedule, from the log alone.
* `Sweeper.log_eq_replay`: the log follows from the times and intervals in it, whoever else is listed.
* `LoggedPass.replay_apart`: between two heartbeats lies the interval of the first.
* `Sweeper.heartbeats_exact`: who gets a heartbeat when, for every run.
-/
namespace TransitPush

/-- A sweep that takes a subscription through the heartbeats: its time, and the interval of the
subscription at it. -/
structure Pass where
  time : Timestamp
  interval : Interval
deriving DecidableEq

/-- When the next heartbeat is due, if this sweep scheduled it. -/
def Pass.next (p : Pass) : Timestamp :=
  p.time.after p.interval.toDelta

/-- A pass, and how many heartbeats there were in it. -/
structure LoggedPass where
  pass : Pass
  beats : Nat
deriving DecidableEq

namespace LoggedPass

/-- The pass that scheduled the subscription last: its last heartbeat, or else its first pass. -/
def lastScheduled (log : List LoggedPass) : Option Pass :=
  ((log.reverse.find? fun p => p.beats ≠ 0).or log.head?).map LoggedPass.pass

def due (log : List LoggedPass) (now : Timestamp) : Nat :=
  match lastScheduled log with
  | none => 0
  | some p => if p.next < now then 1 else 0

/-- The log of some passes. -/
def replay (passes : List Pass) : List LoggedPass :=
  passes.foldl (fun log p => log ++ [⟨p, due log p.time⟩]) []

theorem lastScheduled_append_singleton {log : List LoggedPass} {p : LoggedPass} :
    lastScheduled (log ++ [p]) =
      if p.beats = 0 then (lastScheduled log).or (some p.pass) else some p.pass := by
  unfold lastScheduled
  rw [List.reverse_append, List.reverse_singleton, List.singleton_append]
  by_cases hp : p.beats = 0
  · rw [List.find?_cons_of_neg (by simpa using hp), if_pos hp]
    cases log with
    | nil => rfl
    | cons q log =>
      rw [List.cons_append, List.head?_cons, List.head?_cons]
      cases (q :: log).reverse.find? fun p => p.beats ≠ 0 <;> rfl
  · rw [List.find?_cons_of_pos (by simpa using hp), if_neg hp]
    rfl

theorem replay_append_singleton {passes : List Pass} {p : Pass} :
    replay (passes ++ [p]) = replay passes ++ [⟨p, due (replay passes) p.time⟩] :=
  List.foldl_append

theorem due_ne_zero {log : List LoggedPass} {now : Timestamp} :
    due log now ≠ 0 ↔ ∃ q, lastScheduled log = some q ∧ q.next < now := by
  unfold due
  cases lastScheduled log with
  | none => simp
  | some q => simp

/-- The pass scheduled last is due after the next heartbeat of every one before it was. -/
theorem replay_bound {passes : List Pass} (hleap : ∀ p ∈ passes, p.time.isLeap = false) :
    ∀ a ∈ replay passes, a.beats ≠ 0 →
      ∃ q, lastScheduled (replay passes) = some q ∧ a.pass.next ≤ q.next := by
  induction passes using List.reverseRecOn with
  | nil =>
    intro a ha
    cases ha
  | append_singleton passes p ih =>
    obtain ⟨hbefore, hp⟩ := List.forall_mem_append.mp hleap
    have hp := hp p List.mem_cons_self
    rw [replay_append_singleton, lastScheduled_append_singleton]
    by_cases hdue : due (replay passes) p.time = 0
    · rw [if_pos hdue]
      intro a ha hbeats
      rcases List.mem_append.mp ha with hold | hnew
      · obtain ⟨q, hq, hle⟩ := ih hbefore a hold hbeats
        exact ⟨q, by rw [hq, Option.some_or], hle⟩
      · obtain rfl := List.mem_singleton.mp hnew
        exact absurd hdue hbeats
    · rw [if_neg hdue]
      obtain ⟨q, hq, hlt⟩ := due_ne_zero.mp hdue
      have hle : q.next ≤ p.next :=
        Timestamp.le_of_lt
          (Timestamp.lt_of_lt_of_le hlt (Timestamp.le_after hp p.interval.toDelta_nonneg))
      intro a ha hbeats
      refine ⟨p, rfl, ?_⟩
      rcases List.mem_append.mp ha with hold | hnew
      · obtain ⟨q', hq', hold⟩ := ih hbefore a hold hbeats
        obtain rfl : q = q' := Option.some.inj (hq.symm.trans hq')
        exact Timestamp.le_trans hold hle
      · obtain rfl := List.mem_singleton.mp hnew
        exact Timestamp.le_refl _

/-- Between two heartbeats the one that the earlier scheduled fell due. -/
theorem replay_apart {passes : List Pass} (hleap : ∀ p ∈ passes, p.time.isLeap = false) :
    (replay passes).Pairwise fun a b =>
      a.beats ≠ 0 → b.beats ≠ 0 → a.pass.next < b.pass.time := by
  induction passes using List.reverseRecOn with
  | nil => exact List.Pairwise.nil
  | append_singleton passes p ih =>
    obtain ⟨hbefore, -⟩ := List.forall_mem_append.mp hleap
    rw [replay_append_singleton]
    refine List.pairwise_append.mpr ⟨ih hbefore, List.pairwise_singleton _ _, ?_⟩
    intro a ha b hb hbeatsA hbeatsB
    obtain rfl := List.mem_singleton.mp hb
    obtain ⟨q, hq, hlt⟩ := due_ne_zero.mp hbeatsB
    obtain ⟨q', hq', hle⟩ := replay_bound hbefore a ha hbeatsA
    obtain rfl : q = q' := Option.some.inj (hq.symm.trans hq')
    exact Timestamp.lt_of_le_of_lt hle hlt

end LoggedPass

namespace Sweeper

open LoggedPass

/-- The sweep takes the subscription through the heartbeats. -/
def pass? (w : Sweeper) (id : SubscriptionId) (sw : Sweep) : Option Pass :=
  (Planner.intervalIn (w.remaining sw) id).map fun interval => ⟨sw.now, interval⟩

def beats (w : Sweeper) (id : SubscriptionId) (sw : Sweep) : Nat :=
  (w.plan sw).heartbeat.countP fun s => s.id = id

def log (w : Sweeper) (id : SubscriptionId) : List Sweep → List LoggedPass
  | [] => []
  | sw :: sweeps =>
    ((w.pass? id sw).map fun p => ⟨p, w.beats id sw⟩).toList ++ (w.after sw).log id sweeps

variable {w : Sweeper} {sw : Sweep} {sweeps later : List Sweep} {id : SubscriptionId}

theorem log_append : w.log id (sweeps ++ later) = w.log id sweeps ++ (w.run sweeps).log id later := by
  induction sweeps generalizing w with
  | nil => rfl
  | cons sw sweeps ih =>
    rw [List.cons_append, log, ih, ← List.append_assoc]
    rfl

theorem log_append_singleton : w.log id (sweeps ++ [sw]) =
    w.log id sweeps ++
      (((w.run sweeps).pass? id sw).map fun p => ⟨p, (w.run sweeps).beats id sw⟩).toList := by
  rw [log_append, log, log, List.append_nil]

/-- The times in the log are times of sweeps. -/
theorem time_of_log {p : LoggedPass} (hp : p ∈ w.log id sweeps) :
    ∃ sw ∈ sweeps, sw.now = p.pass.time := by
  induction sweeps generalizing w with
  | nil => cases hp
  | cons sw sweeps ih =>
    rcases List.mem_append.mp hp with hfirst | hlater
    · obtain ⟨q, hq, rfl⟩ := Option.map_eq_some_iff.mp (Option.mem_toList.mp hfirst)
      obtain ⟨interval, -, rfl⟩ := Option.map_eq_some_iff.mp hq
      exact ⟨sw, List.mem_cons_self, rfl⟩
    · obtain ⟨found, hfound, htime⟩ := ih hlater
      exact ⟨found, List.mem_cons_of_mem _ hfound, htime⟩

/-! ## One sweep -/

theorem remaining_unique (hunique : sw.Unique) : ((w.remaining sw).map Subscription.id).Nodup :=
  List.Nodup.sublist (List.filter_sublist.map _) hunique

/-- The heartbeats of a sweep and the entry after it, from the entry before it. -/
theorem beats_after (hunique : sw.Unique) :
    (w.beats id sw, (w.after sw).schedule.get? id) =
      Planner.heartbeatOf sw.now (w.schedule.get? id)
        (Planner.intervalIn (w.remaining sw) id) := by
  rw [beats, heartbeat_eq, schedule_after]
  exact Planner.heartbeats_of_id (remaining_unique hunique)

/-- Who is listed and stays goes through with the interval it has. -/
theorem pass?_of_listed (hunique : sw.Unique) {s : Subscription} (hs : s ∈ sw.listed)
    (hstays : ¬ s ∈ (w.plan sw).terminate) :
    w.pass? s.id sw = s.heartbeat.map fun interval => ⟨sw.now, interval⟩ := by
  have hremains : s ∈ w.remaining sw := List.mem_filter.mpr ⟨hs, decide_eq_true hstays⟩
  rw [pass?, Planner.intervalIn_of_mem (remaining_unique hunique) hremains]

theorem pass?_eq_none
    (h : ∀ s ∈ sw.listed, s.id = id → s ∈ (w.plan sw).terminate ∨ s.heartbeat = none) :
    w.pass? id sw = none := by
  have hnone : Planner.intervalIn (w.remaining sw) id = none := by
    refine Planner.intervalIn_eq_none fun s hs hid => ?_
    obtain ⟨hlisted, hstays⟩ := List.mem_filter.mp hs
    exact (h s hlisted hid).resolve_left (of_decide_eq_true hstays)
  rw [pass?, hnone, Option.map_none]

/-- A sweep that does not take the subscription through leaves its entry as it is. -/
theorem beats_after_none (hunique : sw.Unique) (hpass : w.pass? id sw = none) :
    w.beats id sw = 0 ∧ (w.after sw).schedule.get? id = w.schedule.get? id := by
  have hafter := @beats_after w sw id hunique
  rw [Option.map_eq_none_iff.mp hpass] at hafter
  exact Prod.mk.inj hafter

/-- A sweep that takes it through with an entry past has one heartbeat for it. The next one is due an
interval later, also after the first pass, which has none. -/
theorem beats_after_some {p : Pass} (hunique : sw.Unique) (hpass : w.pass? id sw = some p) :
    w.beats id sw = (if Planner.heartbeatDue p.time (w.schedule.get? id) then 1 else 0) ∧
      (w.after sw).schedule.get? id =
        some (Planner.nextHeartbeat p.interval.toDelta p.time (w.schedule.get? id)) := by
  obtain ⟨interval, hinterval, rfl⟩ := Option.map_eq_some_iff.mp hpass
  have hafter := @beats_after w sw id hunique
  rw [hinterval] at hafter
  exact Prod.mk.inj hafter

/-! ## Runs -/

/-- The entry of a subscription says when the next heartbeat after the last one scheduled is due. -/
theorem entry_run (hnew : w.schedule.get? id = none) (hunique : ∀ sw ∈ sweeps, sw.Unique) :
    (w.run sweeps).schedule.get? id = (lastScheduled (w.log id sweeps)).map Pass.next := by
  induction sweeps using List.reverseRecOn with
  | nil => exact hnew
  | append_singleton sweeps sw ih =>
    obtain ⟨hbefore, hsw⟩ := List.forall_mem_append.mp hunique
    have hsw := hsw sw List.mem_cons_self
    have hentry := ih hbefore
    rw [run_append, run, run, log_append_singleton]
    cases hpass : (w.run sweeps).pass? id sw with
    | none =>
      rw [(beats_after_none hsw hpass).2, hentry, Option.map_none, Option.toList_none,
        List.append_nil]
    | some p =>
      obtain ⟨hbeats, hnext⟩ := beats_after_some hsw hpass
      rw [hentry] at hbeats hnext
      rw [hnext, Option.map_some, Option.toList_some, lastScheduled_append_singleton, hbeats]
      cases lastScheduled (w.log id sweeps) with
      | none => rfl
      | some q =>
        simp only [Option.map_some, Planner.heartbeatDue, Planner.nextHeartbeat, Option.any_some,
          decide_eq_true_eq]
        by_cases hdue : q.next < p.time
        · rw [if_neg (Timestamp.not_le.mpr hdue), if_pos hdue]
          rfl
        · rw [if_pos (Timestamp.not_lt.mp hdue), if_neg hdue]
          rfl

/-- A pass has a heartbeat exactly if one is due by the log. -/
theorem beats_run (hnew : w.schedule.get? id = none) (hunique : ∀ sw ∈ sweeps, sw.Unique)
    (hsw : sw.Unique) {p : Pass} (hpass : (w.run sweeps).pass? id sw = some p) :
    (w.run sweeps).beats id sw = due (w.log id sweeps) p.time := by
  rw [(beats_after_some hsw hpass).1, entry_run hnew hunique, due]
  cases lastScheduled (w.log id sweeps) with
  | none => rfl
  | some q => simp [Planner.heartbeatDue]

/-- Times and intervals of the passes determine the heartbeats in them. -/
theorem log_eq_replay (hnew : w.schedule.get? id = none) (hunique : ∀ sw ∈ sweeps, sw.Unique) :
    w.log id sweeps = replay ((w.log id sweeps).map LoggedPass.pass) := by
  induction sweeps using List.reverseRecOn with
  | nil => rfl
  | append_singleton sweeps sw ih =>
    obtain ⟨hbefore, hsw⟩ := List.forall_mem_append.mp hunique
    have hsw := hsw sw List.mem_cons_self
    rw [log_append_singleton]
    cases hpass : (w.run sweeps).pass? id sw with
    | none =>
      rw [Option.map_none, Option.toList_none, List.append_nil]
      exact ih hbefore
    | some p =>
      rw [Option.map_some, Option.toList_some, List.map_append, List.map_singleton,
        replay_append_singleton, ← ih hbefore, beats_run hnew hbefore hsw hpass]

/-- **Heartbeats.** In every run of sweeps at times of a clock, for every subscription that has no
entry at first: a sweep that lists it, does not terminate it, and finds an interval has one heartbeat
for it if the time of the last sweep that scheduled it, later by the interval it had then, is past,
and none otherwise, as in the first such sweep. All other sweeps have none and leave its entry as it
is. Times and intervals of its own passes determine its heartbeats. So two heartbeats lie more than
the interval at the earlier one apart. -/
theorem heartbeats_exact (w : Sweeper) (id : SubscriptionId)
    (hnew : w.schedule.get? id = none) (sweeps : List Sweep)
    (hunique : ∀ sw ∈ sweeps, sw.Unique) (hleap : ∀ sw ∈ sweeps, sw.now.isLeap = false) :
    (∀ before sw later, sweeps = before ++ sw :: later →
      let v := w.run before
      (∀ s ∈ sw.listed, s.id = id → ¬ s ∈ (v.plan sw).terminate → ∀ d, s.heartbeat = some d →
        (v.plan sw).heartbeat.countP (fun u => u.id = id) =
          match lastScheduled (w.log id before) with
          | none => 0
          | some p => if p.time.after p.interval.toDelta < sw.now then 1 else 0) ∧
      ((∀ s ∈ sw.listed, s.id = id → s ∈ (v.plan sw).terminate ∨ s.heartbeat = none) →
        (v.plan sw).heartbeat.countP (fun u => u.id = id) = 0 ∧
          (v.after sw).schedule.get? id = v.schedule.get? id)) ∧
    (∀ (w' : Sweeper) (sweeps' : List Sweep), w'.schedule.get? id = none →
      (∀ sw ∈ sweeps', sw.Unique) →
      (w'.log id sweeps').map LoggedPass.pass = (w.log id sweeps).map LoggedPass.pass →
      w'.log id sweeps' = w.log id sweeps) ∧
    (w.log id sweeps).Pairwise fun a b => a.beats = 1 → b.beats = 1 →
      a.pass.interval.nanos < b.pass.time.since a.pass.time := by
  refine ⟨?_, ?_, ?_⟩
  · rintro before sw later rfl v
    obtain ⟨hbefore, hrest⟩ := List.forall_mem_append.mp hunique
    have hsw := hrest sw List.mem_cons_self
    constructor
    · rintro s hs rfl hstays d hd
      have hpass : v.pass? s.id sw = some ⟨sw.now, d⟩ := by
        rw [pass?_of_listed hsw hs hstays, hd, Option.map_some]
      exact beats_run hnew hbefore hsw hpass
    · exact fun hout => beats_after_none hsw (pass?_eq_none hout)
  · intro w' sweeps' hnew' hunique' hsame
    rw [log_eq_replay hnew hunique, log_eq_replay hnew' hunique', hsame]
  · have hclock : ∀ p ∈ w.log id sweeps, p.pass.time.isLeap = false := by
      intro p hp
      obtain ⟨sw, hsw, htime⟩ := time_of_log hp
      rw [← htime]
      exact hleap sw hsw
    have hpasses : ∀ p ∈ (w.log id sweeps).map LoggedPass.pass, p.time.isLeap = false := by
      intro p hp
      obtain ⟨logged, hlogged, rfl⟩ := List.mem_map.mp hp
      exact hclock logged hlogged
    have hapart := replay_apart hpasses
    rw [← log_eq_replay hnew hunique] at hapart
    refine hapart.imp_of_mem fun {a b} ha hb h hbeatsA hbeatsB => ?_
    have hlt := h (by rw [hbeatsA]; exact Nat.one_ne_zero) (by rw [hbeatsB]; exact Nat.one_ne_zero)
    exact Timestamp.nanos_lt_since (hclock a ha) (hclock b hb)
      (Timestamp.lt_since_of_after_lt (hclock a ha) (hclock b hb) (Interval.toDelta_nonneg _) hlt)

def beatingEvery (id : SubscriptionId) (seconds : UInt64) : Subscription :=
  { Subscription.pushing id "http://a" with id, heartbeat := some (.ofSeconds seconds) }

/-- A minute, at the second and a nanosecond later; then ten seconds, with a sweep for others in
between; then an interval that never ends. -/
def changingIntervals : List Sweep :=
  [⟨[beatingEvery "a" 60, beatingEvery "b" 5], .epoch⟩,
    ⟨[beatingEvery "a" 60], ⟨60, 0, by decide⟩⟩,
    ⟨[beatingEvery "b" 5, beatingEvery "a" 10], ⟨60, 1, by decide⟩⟩,
    ⟨[beatingEvery "b" 5], ⟨80, 0, by decide⟩⟩,
    ⟨[beatingEvery "a" 18446744073709551615], ⟨90, 0, by decide⟩⟩,
    ⟨[beatingEvery "a" 1], .greatest⟩]

theorem heartbeats_exact_changingIntervals :
    let w : Sweeper := ⟨.ofInterval (.ofSeconds 100), ∅⟩
    (∀ sw ∈ changingIntervals, sw.Unique) ∧
    (∀ sw ∈ changingIntervals, sw.now.isLeap = false) ∧
    (w.log "a" changingIntervals).map LoggedPass.beats = [0, 0, 1, 1, 0] ∧
    (w.log "a" changingIntervals).Pairwise fun a b => a.beats = 1 → b.beats = 1 →
      a.pass.interval.nanos < b.pass.time.since a.pass.time := by
  intro w
  have hunique : ∀ sw ∈ changingIntervals, sw.Unique := by decide
  have hleap : ∀ sw ∈ changingIntervals, sw.now.isLeap = false := by decide
  obtain ⟨-, -, hapart⟩ := heartbeats_exact w "a" rfl changingIntervals hunique hleap
  exact ⟨hunique, hleap, by decide, hapart⟩

end Sweeper
end TransitPush
