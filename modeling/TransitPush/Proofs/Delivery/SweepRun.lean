import TransitPush.Delivery.Sweep
import TransitPush.Proofs.Table
import TransitPush.Proofs.Time.Clock
import TransitPush.Proofs.Time.Order
/-!
# Runs of sweeps

Sweeps follow one another, each with a list of subscriptions and a time of its own. From one to the
next only two things are kept: when ends are looked for again, and the schedule of heartbeats.

* `Sweeper.terminate_eq`, `Sweeper.heartbeat_eq`, `Sweeper.planner_after`, `Sweeper.schedule_after`:
  what one sweep finds and leaves, whether it looks for ends or not.
* `Planner.heartbeats_of_id`: the heartbeats of one subscription and its entry, from its interval and
  its own entry alone.
* `Timestamp.nanos_after`: the time later by some length as a number, at most the greatest.
-/
namespace TransitPush

/-! ## Later by an interval -/

namespace Timestamp

variable {t now : Timestamp} {d : TimeDelta}

theorem nanos_after (ht : t.isLeap = false) (hd : (0 : Int) ≤ d) :
    (t.after d).isLeap = false ∧ (t.after d).nanos = min (t.nanos + d) greatest.nanos := by
  unfold after
  cases h : t.add? d with
  | some later =>
    obtain ⟨hsum, hleap⟩ := nanos_of_add? ht h
    have hle := nanos_le_greatest hleap
    refine ⟨hleap, ?_⟩
    rw [Option.getD_some, hsum]
    rw [hsum] at hle
    exact (Int.min_eq_left hle).symm
  | none =>
    refine ⟨rfl, ?_⟩
    exact (Int.min_eq_right (add?_eq_none ht hd h)).symm

/-- Before the time later by `d`, less than `d` has passed. -/
theorem since_lt_of_lt_after (ht : t.isLeap = false) (hnow : now.isLeap = false)
    (hd : (0 : Int) ≤ d) (h : now < t.after d) : now.since t < d := by
  obtain ⟨hleap, hafter⟩ := nanos_after ht hd
  rw [lt_iff hnow hleap, hafter] at h
  rw [since_eq hnow ht]
  show (_ : Int) < _
  omega

/-- After the time later by `d`, more than `d` has passed. -/
theorem lt_since_of_after_lt (ht : t.isLeap = false) (hnow : now.isLeap = false)
    (hd : (0 : Int) ≤ d) (h : t.after d < now) : d < now.since t := by
  obtain ⟨hleap, hafter⟩ := nanos_after ht hd
  have hle := nanos_le_greatest hnow
  rw [lt_iff hleap hnow, hafter] at h
  rw [since_eq hnow ht]
  show (_ : Int) < _
  omega

/-- No time that passes is as long as the longest interval, so beyond an interval cut down to it
nothing is left to pass. -/
theorem nanos_lt_since {i : Interval} (ht : t.isLeap = false) (hnow : now.isLeap = false)
    (h : i.toDelta < now.since t) : i.nanos < now.since t := by
  rw [since_eq hnow ht] at h ⊢
  have hnano := nano_lt hnow
  obtain ⟨-, hlast, -⟩ := now.valid
  obtain ⟨hfirst, -⟩ := t.valid
  have hrange : now.nanos - t.nanos < TimeDelta.longest := by
    unfold nanos TimeDelta.longest
    unfold firstSecond lastSecond nanosPerSecond at *
    omega
  rcases i.toDelta_eq with hwhole | hcut
  · rwa [hwhole] at h
  · rw [hcut] at h
    exact absurd hrange (Int.lt_asymm h)

theorem le_after (ht : t.isLeap = false) (hd : (0 : Int) ≤ d) : t ≤ t.after d := by
  obtain ⟨hleap, hafter⟩ := nanos_after ht hd
  have hle := nanos_le_greatest ht
  rw [le_iff ht hleap, hafter]
  omega

end Timestamp

/-! ## Sweeps -/

/-- A sweep to be made: the subscriptions it is given, and its time. -/
structure Sweep where
  listed : List Subscription
  now : Timestamp
deriving DecidableEq

/-- No identifier is listed twice. -/
def Sweep.Unique (sw : Sweep) : Prop :=
  (sw.listed.map Subscription.id).Nodup

instance (sw : Sweep) : Decidable sw.Unique :=
  inferInstanceAs (Decidable (List.Nodup _))

structure Sweeper where
  planner : Planner
  schedule : TimestampMap
deriving DecidableEq

namespace Sweeper

def plan (w : Sweeper) (sw : Sweep) : SweepPlan :=
  (w.planner.plan w.schedule sw.listed sw.now).1

def after (w : Sweeper) (sw : Sweep) : Sweeper :=
  let (_, planner, schedule) := w.planner.plan w.schedule sw.listed sw.now
  ⟨planner, schedule⟩

def checks (w : Sweeper) (sw : Sweep) : Bool :=
  w.planner.checkDue sw.now

def run (w : Sweeper) : List Sweep → Sweeper
  | [] => w
  | sw :: sweeps => (w.after sw).run sweeps

/-- The subscriptions that a sweep leaves after those that end. -/
def remaining (w : Sweeper) (sw : Sweep) : List Subscription :=
  sw.listed.filter fun s => s ∉ (w.plan sw).terminate

variable {w : Sweeper} {sw : Sweep} {sweeps later : List Sweep}

theorem run_append : w.run (sweeps ++ later) = (w.run sweeps).run later := by
  induction sweeps generalizing w with
  | nil => rfl
  | cons sw sweeps ih => exact ih

/-! ## One sweep -/

theorem terminate_eq : (w.plan sw).terminate =
    if w.checks sw then sw.listed.filter (Planner.isOver sw.now) else [] := by
  unfold plan Planner.plan checks
  cases w.planner.checkDue sw.now with
  | true => rw [List.partition_eq_filter_filter]; rfl
  | false => rfl

theorem remaining_eq : w.remaining sw =
    if w.checks sw then sw.listed.filter fun s => !Planner.isOver sw.now s else sw.listed := by
  unfold remaining
  rw [terminate_eq]
  cases w.checks sw with
  | true =>
    refine List.filter_congr fun s hs => ?_
    simp [hs]
  | false =>
    exact List.filter_eq_self.mpr fun s _ => by simp

theorem heartbeat_eq : (w.plan sw).heartbeat =
    (Planner.heartbeats sw.now w.schedule (w.remaining sw)).1 := by
  rw [remaining_eq]
  unfold plan Planner.plan checks
  cases w.planner.checkDue sw.now with
  | true => rw [List.partition_eq_filter_filter]; rfl
  | false => rfl

theorem schedule_after : (w.after sw).schedule =
    (Planner.heartbeats sw.now w.schedule (w.remaining sw)).2 := by
  rw [remaining_eq]
  unfold after Planner.plan checks
  cases w.planner.checkDue sw.now with
  | true => rw [List.partition_eq_filter_filter]; rfl
  | false => rfl

theorem planner_after : (w.after sw).planner =
    if w.checks sw then
      { w.planner with nextCheck := some (w.planner.checkAfter (w.remaining sw) sw.now) }
    else w.planner := by
  rw [remaining_eq]
  unfold after Planner.plan checks
  cases w.planner.checkDue sw.now with
  | true => rw [List.partition_eq_filter_filter]; rfl
  | false => rfl

theorem checkInterval_after : (w.after sw).planner.checkInterval = w.planner.checkInterval := by
  rw [planner_after]
  split <;> rfl

theorem checkInterval_run : (w.run sweeps).planner.checkInterval = w.planner.checkInterval := by
  induction sweeps generalizing w with
  | nil => rfl
  | cons sw sweeps ih => exact ih.trans checkInterval_after

end Sweeper

/-! ## The heartbeats of one subscription -/

namespace Planner

variable {now : Timestamp} {schedule : TimestampMap} {ss : List Subscription}
  {id : SubscriptionId} {interval : Interval}

/-- The interval of the subscription with an identifier, if it is in a list and has one. -/
def intervalIn (ss : List Subscription) (id : SubscriptionId) : Option Interval :=
  (ss.find? fun s => s.id = id).bind Subscription.heartbeat

theorem heartbeats_sublist : (heartbeats now schedule ss).1.Sublist ss := by
  induction ss generalizing schedule with
  | nil => exact List.Sublist.refl _
  | cons s ss ih =>
    rw [heartbeats]
    split
    · exact ih.cons s
    · dsimp only
      split
      · exact ih.cons_cons s
      · exact ih.cons s

/-- The heartbeats of a list write no entry of anybody who is not in it. -/
theorem heartbeats_unlisted (hid : ∀ s ∈ ss, s.id ≠ id) :
    (heartbeats now schedule ss).2.get? id = schedule.get? id := by
  induction ss generalizing schedule with
  | nil => rfl
  | cons s ss ih =>
    obtain ⟨hs, hss⟩ := List.forall_mem_cons.mp hid
    rw [heartbeats]
    split
    · exact ih hss
    · refine (ih hss).trans ?_
      rw [Table.get?_insert, if_neg (Ne.symm hs)]

theorem intervalIn_cons {s : Subscription} :
    intervalIn (s :: ss) id = if s.id = id then s.heartbeat else intervalIn ss id := by
  unfold intervalIn
  by_cases hid : s.id = id
  · rw [List.find?_cons_of_pos (by simpa using hid), if_pos hid]
    rfl
  · rw [List.find?_cons_of_neg (by simpa using hid), if_neg hid]

theorem intervalIn_eq_none (h : ∀ s ∈ ss, s.id = id → s.heartbeat = none) :
    intervalIn ss id = none := by
  induction ss with
  | nil => rfl
  | cons s ss ih =>
    obtain ⟨hs, hss⟩ := List.forall_mem_cons.mp h
    rw [intervalIn_cons]
    split
    · exact hs ‹_›
    · exact ih hss

theorem intervalIn_unlisted (hid : id ∉ ss.map Subscription.id) : intervalIn ss id = none :=
  intervalIn_eq_none fun _ hs heq => absurd (heq ▸ List.mem_map_of_mem hs) hid

theorem intervalIn_of_mem (hids : (ss.map Subscription.id).Nodup) {s : Subscription}
    (hs : s ∈ ss) : intervalIn ss s.id = s.heartbeat := by
  induction ss with
  | nil => cases hs
  | cons first ss ih =>
    obtain ⟨hout, hids⟩ := List.nodup_cons.mp hids
    rw [intervalIn_cons]
    rcases List.mem_cons.mp hs with rfl | hs
    · rw [if_pos rfl]
    · have hother : first.id ≠ s.id := fun heq => hout (heq ▸ List.mem_map_of_mem hs)
      rw [if_neg hother, ih hids hs]

/-- How many heartbeats a sweep has for a subscription, and its entry after the sweep: none and the
same entry if the subscription does not go through the heartbeats. -/
def heartbeatOf (now : Timestamp) (entry : Option Timestamp) :
    Option Interval → Nat × Option Timestamp
  | none => (0, entry)
  | some interval =>
    (if heartbeatDue now entry then 1 else 0, some (nextHeartbeat interval.toDelta now entry))

/-- What the heartbeats of a sweep are to one subscription follows from its interval and its entry,
whoever else is in the list. -/
theorem heartbeats_of_id (hids : (ss.map Subscription.id).Nodup) :
    ((heartbeats now schedule ss).1.countP (fun s => s.id = id),
      (heartbeats now schedule ss).2.get? id) =
      heartbeatOf now (schedule.get? id) (intervalIn ss id) := by
  induction ss generalizing schedule with
  | nil => rfl
  | cons s ss ih =>
    obtain ⟨hout, hids⟩ := List.nodup_cons.mp hids
    rw [intervalIn_cons, heartbeats]
    by_cases hid : s.id = id
    · subst hid
      have hrest := intervalIn_unlisted hout
      rw [if_pos rfl]
      cases s.heartbeat with
      | none =>
        dsimp only
        rw [ih hids, hrest]
      | some interval =>
        have hlast := @ih
          (schedule.insert s.id (nextHeartbeat interval.toDelta now (schedule.get? s.id))) hids
        rw [hrest, Table.get?_insert, if_pos rfl] at hlast
        obtain ⟨hnone, hentry⟩ := Prod.mk.inj hlast
        dsimp only
        rw [hentry, heartbeatOf]
        split
        · rw [List.countP_cons_of_pos (by simp), hnone]
        · rw [hnone]
    · rw [if_neg hid]
      cases s.heartbeat with
      | none => exact ih hids
      | some interval =>
        have hlast := @ih
          (schedule.insert s.id (nextHeartbeat interval.toDelta now (schedule.get? s.id))) hids
        rw [Table.get?_insert, if_neg (Ne.symm hid)] at hlast
        rw [← hlast]
        dsimp only
        split
        · rw [List.countP_cons_of_neg (by simpa using hid)]
        · rfl

end Planner

/-- A sweep writes no entry of anybody whom it does not list. -/
theorem Sweeper.entry_after_unlisted {w : Sweeper} {sw : Sweep} {id : SubscriptionId}
    (hid : ∀ s ∈ sw.listed, s.id ≠ id) :
    (w.after sw).schedule.get? id = w.schedule.get? id := by
  rw [schedule_after]
  exact Planner.heartbeats_unlisted fun s hs => hid s (List.mem_of_mem_filter hs)

end TransitPush
