import Mathlib.Data.List.Induction
import TransitPush.Proofs.Delivery.SweepRun
/-!
# When subscriptions end

Ends are looked for now and then only, but the next look is never later than the next end known. So
nobody ends early, and nobody who was there at the last look ends late.

* `Sweeper.lastLook?`: the last sweep of a run that looked for ends.
* `Sweeper.nextCheck_run`: when ends are looked for again, from that sweep alone.
* `Sweeper.lastLook_of_left_out`: what is known of the last look if a sweep leaves out a subscription
  whose end is past.
* `Sweeper.terminations_timely`: all of it, for every run.
* `Sweeper.relisted_left_out`: a subscription that was terminated and is listed once more may be left
  out, and a leap second may stretch the time between two looks.
-/
namespace TransitPush

/-- A sweep that looked for ends, and what it found. -/
structure Look where
  sweep : Sweep
  found : SweepPlan
deriving DecidableEq

def Look.remaining (look : Look) : List Subscription :=
  look.sweep.listed.filter fun s => s ∉ look.found.terminate

namespace Planner

variable {p : Planner} {s : Subscription} {ss : List Subscription} {now t : Timestamp}

theorem isOver_iff : isOver now s = true ↔ ∃ t, s.terminatesAt = some t ∧ t < now := by
  rw [isOver, Option.any_eq_true]
  simp only [decide_eq_true_eq]

theorem checkDue_eq_false : p.checkDue now = false ↔ ∃ t, p.nextCheck = some t ∧ now < t := by
  unfold checkDue
  cases p.nextCheck with
  | none => simp
  | some t => simp [Timestamp.not_le]

/-- The next look comes after the interval, and not after an end that is still to come. -/
theorem lt_checkAfter : t < p.checkAfter ss now ↔ t < now.after p.checkInterval ∧
    ∀ s ∈ ss, ∀ u, s.terminatesAt = some u → now ≤ u → t < u := by
  rw [checkAfter, Timestamp.lt_foldl_earlier]
  refine and_congr_right fun _ => ?_
  simp only [List.mem_filter, List.mem_filterMap, decide_eq_true_eq]
  constructor
  · exact fun h s hs u hu hle => h u ⟨⟨s, hs, hu⟩, hle⟩
  · rintro h u ⟨⟨s, hs, hu⟩, hle⟩
    exact h s hs u hu hle

end Planner

namespace Sweeper

def lastLook? (w : Sweeper) : List Sweep → Option Look
  | [] => none
  | sw :: sweeps =>
    ((w.after sw).lastLook? sweeps).or (if w.checks sw then some ⟨sw, w.plan sw⟩ else none)

variable {w : Sweeper} {sw check : Sweep} {sweeps earlier between : List Sweep} {look : Look}
  {s : Subscription} {t : Timestamp}

/-! ## The last look -/

theorem lastLook?_append_singleton : w.lastLook? (sweeps ++ [sw]) =
    if (w.run sweeps).checks sw then some ⟨sw, (w.run sweeps).plan sw⟩ else w.lastLook? sweeps := by
  induction sweeps generalizing w with
  | nil => rfl
  | cons first sweeps ih =>
    rw [List.cons_append, lastLook?, ih, run, lastLook?]
    split <;> rfl

/-- What the last look found: it left out nobody whose end was past. -/
theorem lastLook?_found (h : w.lastLook? sweeps = some look) :
    look.found.terminate = look.sweep.listed.filter (Planner.isOver look.sweep.now) := by
  induction sweeps using List.reverseRecOn with
  | nil => cases h
  | append_singleton sweeps sw ih =>
    rw [lastLook?_append_singleton] at h
    split at h
    · rename_i hchecks
      cases h
      rw [terminate_eq, if_pos hchecks]
    · exact ih h

/-- After a look, the last one is that look or one that came later. -/
theorem lastLook?_from (hchecks : (w.run earlier).checks check = true) :
    ∃ look, w.lastLook? (earlier ++ check :: between) = some look ∧
      look.sweep ∈ check :: between := by
  induction between using List.reverseRecOn with
  | nil =>
    rw [lastLook?_append_singleton, if_pos hchecks]
    exact ⟨_, rfl, List.mem_cons_self⟩
  | append_singleton between sw ih =>
    obtain ⟨look, hlook, hmem⟩ := ih
    rw [← List.cons_append, ← List.append_assoc, lastLook?_append_singleton]
    split
    · exact ⟨_, rfl, List.mem_append_right _ List.mem_cons_self⟩
    · exact ⟨look, hlook, List.mem_append_left _ hmem⟩

/-- When ends are looked for again follows from the last look: a sweep that does not look changes
nothing about it. -/
theorem nextCheck_run (hw : w.planner.nextCheck = none) :
    (w.run sweeps).planner.nextCheck = (w.lastLook? sweeps).map fun look =>
      w.planner.checkAfter look.remaining look.sweep.now := by
  induction sweeps using List.reverseRecOn with
  | nil => exact hw
  | append_singleton sweeps sw ih =>
    rw [run_append, run, run, planner_after, lastLook?_append_singleton]
    split
    · have hinterval : (w.run sweeps).planner.checkInterval = w.planner.checkInterval :=
        checkInterval_run
      simp only [Option.map_some, Planner.checkAfter, hinterval]
      rfl
    · exact ih

/-- A sweep that looks leaves out nobody whose end is past. -/
theorem mem_terminate_of_checks (hchecks : w.checks sw = true) (hs : s ∈ sw.listed)
    (ht : s.terminatesAt = some t) (hpast : t < sw.now) : s ∈ (w.plan sw).terminate := by
  rw [terminate_eq, if_pos hchecks, List.mem_filter]
  exact ⟨hs, Planner.isOver_iff.mpr ⟨t, ht, hpast⟩⟩

/-- If a sweep leaves out somebody whose end is past, the last look was not long ago, and it
terminated everybody in its list with this very end. -/
theorem lastLook_of_left_out (hw : w.planner.nextCheck = none) (hs : s ∈ sw.listed)
    (ht : s.terminatesAt = some t) (hpast : t < sw.now)
    (hout : ¬ s ∈ ((w.run sweeps).plan sw).terminate) :
    ∃ look, w.lastLook? sweeps = some look ∧
      sw.now < look.sweep.now.after w.planner.checkInterval ∧
      ∀ u ∈ look.sweep.listed, u.terminatesAt = some t → u ∈ look.found.terminate := by
  have hchecks : (w.run sweeps).checks sw = false :=
    Bool.eq_false_iff.mpr fun h => hout (mem_terminate_of_checks h hs ht hpast)
  obtain ⟨next, hnext, hlt⟩ := Planner.checkDue_eq_false.mp hchecks
  rw [nextCheck_run hw] at hnext
  obtain ⟨look, hlook, rfl⟩ := Option.map_eq_some_iff.mp hnext
  obtain ⟨hinterval, hends⟩ := Planner.lt_checkAfter.mp hlt
  refine ⟨look, hlook, hinterval, fun u hu hut => ?_⟩
  by_contra hleft
  have hremains : u ∈ look.remaining := List.mem_filter.mpr ⟨hu, decide_eq_true hleft⟩
  have hcoming : look.sweep.now ≤ t := by
    rw [lastLook?_found hlook, List.mem_filter, Planner.isOver_iff] at hleft
    exact Timestamp.not_lt.mp fun hlt => hleft ⟨hu, t, hut, hlt⟩
  exact Timestamp.lt_irrefl t (Timestamp.lt_trans hpast (hends u hremains t hut hcoming))

/-! ## Terminations -/

theorem terminate_sublist : (w.plan sw).terminate.Sublist sw.listed := by
  rw [terminate_eq]
  split
  · exact List.filter_sublist
  · exact List.nil_sublist _

theorem heartbeat_sublist : (w.plan sw).heartbeat.Sublist (w.remaining sw) := by
  rw [heartbeat_eq]
  exact Planner.heartbeats_sublist

theorem terminate_past (hs : s ∈ (w.plan sw).terminate) :
    ∃ t, s.terminatesAt = some t ∧ t < sw.now := by
  rw [terminate_eq] at hs
  split at hs
  · exact Planner.isOver_iff.mp (List.mem_filter.mp hs).2
  · cases hs

/-- Who ends gets no heartbeat in the same sweep. -/
theorem terminate_disjoint (hunique : sw.Unique) {u : Subscription}
    (hs : s ∈ (w.plan sw).terminate) (hu : u ∈ (w.plan sw).heartbeat) : s.id ≠ u.id := by
  intro hid
  obtain ⟨hlisted, hleft⟩ := List.mem_filter.mp (heartbeat_sublist.subset hu)
  have hsame : s = u := List.inj_on_of_nodup_map hunique (terminate_sublist.subset hs) hlisted hid
  exact of_decide_eq_true hleft (hsame ▸ hs)

/-- **Terminations.** In every run of sweeps, whatever their lists, times and the interval between
looks for ends: who ends is past the end, nobody ends and gets a heartbeat in one sweep, and both
lists keep the order of the list given. If a sweep leaves out somebody whose end is past, the last
look was less than the interval before, and that look did not have the subscription with this end in
its list, or terminated it. So who stays in the list from a look on ends in the first sweep after its
end, and everybody who is past the end does in a sweep an interval or more after the last look. -/
theorem terminations_timely (i : Interval) (schedule : TimestampMap) (before : List Sweep)
    (sw : Sweep) (hunique : sw.Unique) :
    let w : Sweeper := ⟨.ofInterval i, schedule⟩
    let plan := (w.run before).plan sw
    (∀ s ∈ plan.terminate, ∃ t, s.terminatesAt = some t ∧ t < sw.now) ∧
    (∀ s ∈ plan.terminate, ∀ u ∈ plan.heartbeat, s.id ≠ u.id) ∧
    plan.terminate.Sublist sw.listed ∧ plan.heartbeat.Sublist sw.listed ∧
    (∀ s ∈ sw.listed, ∀ t, s.terminatesAt = some t → t < sw.now → ¬ s ∈ plan.terminate →
      ∃ look, w.lastLook? before = some look ∧
        sw.now < look.sweep.now.after i.toDelta ∧
        (look.sweep.now.isLeap = false → sw.now.isLeap = false →
          sw.now.since look.sweep.now < i.toDelta) ∧
        ∀ u ∈ look.sweep.listed, u.id = s.id → u.terminatesAt = some t →
          u ∈ look.found.terminate) ∧
    (∀ earlier check between, before = earlier ++ check :: between →
      (w.run earlier).checks check = true →
      ∀ s ∈ sw.listed, ∀ t, s.terminatesAt = some t → t < sw.now →
        (∀ b ∈ check :: between, b.now ≤ t ∧
          ∃ u ∈ b.listed, u.id = s.id ∧ u.terminatesAt = some t) →
        s ∈ plan.terminate) ∧
    ∀ s ∈ sw.listed, ∀ t, s.terminatesAt = some t → t < sw.now →
      (∀ look, w.lastLook? before = some look → look.sweep.now.after i.toDelta ≤ sw.now) →
      s ∈ plan.terminate := by
  intro w plan
  have hlast : ∀ s ∈ sw.listed, ∀ t, s.terminatesAt = some t → t < sw.now →
      ¬ s ∈ plan.terminate → ∃ look, w.lastLook? before = some look ∧
        sw.now < look.sweep.now.after i.toDelta ∧
        ∀ u ∈ look.sweep.listed, u.terminatesAt = some t → u ∈ look.found.terminate :=
    fun s hs t ht hpast hout => lastLook_of_left_out rfl hs ht hpast hout
  refine ⟨fun s hs => terminate_past hs, fun s hs u hu => terminate_disjoint hunique hs hu,
    terminate_sublist, heartbeat_sublist.trans List.filter_sublist, ?_, ?_, ?_⟩
  · intro s hs t ht hpast hout
    obtain ⟨look, hlook, hinterval, hfound⟩ := hlast s hs t ht hpast hout
    exact ⟨look, hlook, hinterval,
      fun hleap hnow => Timestamp.since_lt_of_lt_after hleap hnow i.toDelta_nonneg hinterval,
      fun u hu _ hut => hfound u hu hut⟩
  · rintro earlier check between rfl hchecks s hs t ht hpast hstays
    by_contra hout
    obtain ⟨look, hlook, -, hfound⟩ := hlast s hs t ht hpast hout
    obtain ⟨last, hlast, hmem⟩ := @lastLook?_from w check earlier between hchecks
    obtain rfl : last = look := Option.some.inj (hlast.symm.trans hlook)
    obtain ⟨hnot, u, hu, -, hut⟩ := hstays _ hmem
    have hover := hfound u hu hut
    rw [lastLook?_found hlook, List.mem_filter, Planner.isOver_iff] at hover
    obtain ⟨-, t', ht', hlt⟩ := hover
    obtain rfl : t = t' := Option.some.inj (hut.symm.trans ht')
    exact hnot hlt
  · intro s hs t ht hpast hlate
    by_contra hout
    obtain ⟨look, hlook, hinterval, -⟩ := hlast s hs t ht hpast hout
    exact hlate look hlook hinterval

def endingAt (t : Timestamp) : Subscription :=
  { Subscription.pushing "a" "http://a" with id := "a", terminatesAt := some t }

/-- Listed at a look, again before its end and at its end, it ends a nanosecond later. -/
theorem terminations_timely_firstAfter :
    let w : Sweeper := ⟨.ofInterval (.ofSeconds 100), ∅⟩
    let s := endingAt ⟨50, 0, by decide⟩
    let look : Sweep := ⟨[s], ⟨0, 0, by decide⟩⟩
    let between : List Sweep := [⟨[s], ⟨40, 0, by decide⟩⟩, ⟨[s], ⟨50, 0, by decide⟩⟩]
    let sw : Sweep := ⟨[s], ⟨50, 1, by decide⟩⟩
    sw.Unique ∧ s ∈ ((w.run (look :: between)).plan sw).terminate := by
  intro w s look between sw
  have hunique : sw.Unique := by decide
  obtain ⟨-, -, -, -, -, hstays, -⟩ :=
    terminations_timely (.ofSeconds 100) ∅ (look :: between) sw hunique
  exact ⟨hunique, hstays [] look between rfl rfl s List.mem_cons_self _ rfl (by decide) (by decide)⟩

/-- Two ways to be left out. A subscription that the last look terminated is listed again with the
same end, and a leap second lies between a look and the sweep that leaves somebody out, so that more
than the interval has passed. -/
theorem relisted_left_out :
    (let w : Sweeper := ⟨.ofInterval (.ofSeconds 100), ∅⟩
      let s := endingAt .epoch
      let look : Sweep := ⟨[s], ⟨10, 0, by decide⟩⟩
      let again : Sweep := ⟨[s], ⟨20, 0, by decide⟩⟩
      Timestamp.epoch < again.now ∧ ¬ s ∈ ((w.run [look]).plan again).terminate ∧
        w.lastLook? [look] = some ⟨look, w.plan look⟩ ∧ s ∈ look.listed) ∧
    (let w : Sweeper := ⟨.ofInterval (.ofSeconds 1), ∅⟩
      let s := endingAt .epoch
      let look : Sweep := ⟨[], ⟨59, 500000000, by decide⟩⟩
      let late : Sweep := ⟨[s], ⟨59, 1600000000, by decide⟩⟩
      Timestamp.epoch < late.now ∧ ¬ s ∈ ((w.run [look]).plan late).terminate ∧
        w.lastLook? [look] = some ⟨look, w.plan look⟩ ∧
        ¬ late.now.since look.now < Interval.toDelta (.ofSeconds 1)) := by
  decide

end Sweeper
end TransitPush
