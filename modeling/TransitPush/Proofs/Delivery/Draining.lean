import Mathlib.Data.List.Induction
import TransitPush.Proofs.Delivery.PoolRun
/-!
# Waiting for the pool to be drained

Who waits for the pool reads its two counters, first that of the active pushes and then that of the
queued ones, and returns if both are 0. Pushes take their steps between the two reads as at any other
time. So the two numbers may never have been true together.

* `WatchedPool.step?`: the steps of pushes and of the calls that wait, in any order.
* `WatchedPool.read_active`: a call that is between its two reads made the first of them at an earlier
  time of the run.
* `WatchedPool.drained_returned`: a call that returns leaves no push behind that was there before it,
  but such as started between its two reads.
* `WatchedPool.drained_too_early`: a push that starts between the two reads is not seen by either.
-/
namespace TransitPush

/-- Where a call is that waits for the pool to be drained. It reads the counter of active pushes, then
that of the queued ones, and sleeps unless both are 0. -/
inductive DrainPhase where
  | called
  | counted (active : Nat)
  | asleep
  | returned
deriving DecidableEq

/-- A call that waits for the pool to be drained, and how many pushes there were when it came. -/
structure DrainCall where
  spawned : Nat
  phase : DrainPhase
deriving DecidableEq

namespace DrainPhase

/-- The phase that follows. A call that sleeps is woken at some time and begins anew. -/
def next? (p : Pool) : DrainPhase → Option DrainPhase
  | called => some (counted p.active)
  | counted active => some (if active + p.queued = 0 then returned else asleep)
  | asleep => some called
  | returned => none

/-- Only its first read gives a call the counter of active pushes. -/
theorem of_counted {before : DrainPhase} {p : Pool} {a : Nat}
    (h : before.next? p = some (.counted a)) : before = .called ∧ p.active = a := by
  cases before with
  | called => exact ⟨rfl, DrainPhase.counted.inj (Option.some.inj h)⟩
  | counted active =>
    rw [next?] at h
    split at h <;> cases h
  | asleep => cases h
  | returned => cases h

/-- A call returns if both of the numbers that it has read are 0. -/
theorem of_returned {before : DrainPhase} {p : Pool} (h : before.next? p = some .returned) :
    before = .counted 0 ∧ p.queued = 0 := by
  cases before with
  | called => cases h
  | counted active =>
    rw [next?] at h
    split at h
    · rename_i hzero
      obtain ⟨hactive, hqueued⟩ := Nat.add_eq_zero_iff.mp hzero
      exact ⟨congrArg _ hactive, hqueued⟩
    · cases h
  | asleep => cases h
  | returned => cases h

end DrainPhase

/-- A pool, and the calls that wait for it to be drained. -/
structure WatchedPool where
  pool : Pool
  calls : List DrainCall
deriving DecidableEq

/-- A push is spawned, a push takes a step, a call comes, or a call takes a step. -/
inductive PoolStep where
  | spawn
  | advance (i : Nat)
  | call
  | look (j : Nat)
deriving DecidableEq

namespace WatchedPool

def ofWorkers (n : Nat) : WatchedPool :=
  ⟨.ofWorkers n, []⟩

def step? (w : WatchedPool) : PoolStep → Option WatchedPool
  | .spawn => some { w with pool := w.pool.spawn }
  | .advance i => (w.pool.advance? i).map fun pool => { w with pool }
  | .call => some { w with calls := w.calls ++ [⟨w.pool.pushes.length, .called⟩] }
  | .look j =>
    w.calls[j]?.bind fun call => (call.phase.next? w.pool).map fun phase =>
      { w with calls := w.calls.set j { call with phase } }

def run? (w : WatchedPool) : List PoolStep → Option WatchedPool
  | [] => some w
  | s :: steps => (w.step? s).bind fun w => w.run? steps

variable {w w' : WatchedPool} {s : PoolStep} {steps later : List PoolStep} {i j : Nat}

theorem run?_append : w.run? (steps ++ later) = (w.run? steps).bind fun w => w.run? later := by
  induction steps generalizing w with
  | nil => rfl
  | cons s steps ih =>
    rw [List.cons_append, run?, run?, Option.bind_assoc]
    exact congrArg _ (funext fun w => ih)

theorem run?_append_singleton : w.run? (steps ++ [s]) = (w.run? steps).bind fun w => w.step? s := by
  rw [run?_append]
  exact congrArg _ (funext fun w => Option.bind_fun_some (w.step? s))

theorem run?_cons_eq_some : w.run? (s :: steps) = some w' ↔
    ∃ w₁, w.step? s = some w₁ ∧ w₁.run? steps = some w' :=
  Option.bind_eq_some_iff

/-! ## One step -/

inductive Step (w : WatchedPool) : PoolStep → WatchedPool → Prop
  | spawn : Step w .spawn { w with pool := w.pool.spawn }
  | advance {i : Nat} {pool : Pool} (hstep : w.pool.advance? i = some pool) :
      Step w (.advance i) { w with pool }
  | call : Step w .call { w with calls := w.calls ++ [⟨w.pool.pushes.length, .called⟩] }
  | look {j : Nat} {call : DrainCall} {phase : DrainPhase} (hcall : w.calls[j]? = some call)
      (hphase : call.phase.next? w.pool = some phase) :
      Step w (.look j) { w with calls := w.calls.set j { call with phase } }

theorem step_of_step? (h : w.step? s = some w') : Step w s w' := by
  cases s with
  | spawn =>
    obtain rfl := Option.some.inj h
    exact .spawn
  | advance i =>
    obtain ⟨pool, hpool, rfl⟩ := Option.map_eq_some_iff.mp h
    exact .advance hpool
  | call =>
    obtain rfl := Option.some.inj h
    exact .call
  | look j =>
    obtain ⟨call, hcall, hnext⟩ := Option.bind_eq_some_iff.mp h
    obtain ⟨phase, hphase, rfl⟩ := Option.map_eq_some_iff.mp hnext
    exact .look hcall hphase

/-- The counters of the pool agree with its pushes, and no call has seen more pushes than there
are. -/
structure Sound (w : WatchedPool) : Prop where
  accounted : w.pool.Accounted
  spawned : ∀ call ∈ w.calls, call.spawned ≤ w.pool.pushes.length

theorem Sound.ofWorkers (n : Nat) : Sound (ofWorkers n) :=
  ⟨.ofWorkers n, fun _ hcall => by cases hcall⟩

theorem Sound.step (h : w.Sound) (hstep : Step w s w') : w'.Sound := by
  cases hstep with
  | spawn =>
    refine ⟨h.accounted.spawn, fun call hcall => ?_⟩
    have hle := h.spawned call hcall
    simp only [Pool.spawn, List.length_append]
    omega
  | advance hstep =>
    refine ⟨h.accounted.advance hstep, fun call hcall => ?_⟩
    rw [Pool.length_advance hstep]
    exact h.spawned call hcall
  | call =>
    refine ⟨h.accounted, fun call hcall => ?_⟩
    rcases List.mem_append.mp hcall with hold | hnew
    · exact h.spawned call hold
    · obtain rfl := List.mem_singleton.mp hnew
      exact Nat.le_refl _
  | look hcall hphase =>
    refine ⟨h.accounted, fun call hmem => ?_⟩
    rcases List.mem_or_eq_of_mem_set hmem with hold | rfl
    · exact h.spawned call hold
    · have hspawned := h.spawned _ (List.mem_of_getElem? hcall)
      exact hspawned

/-- A push that has finished stays so. -/
theorem finished_step (hstep : Step w s w') (h : w.pool.hasFinished i = true) :
    w'.pool.hasFinished i = true := by
  cases hstep with
  | spawn => exact Pool.finished_spawn h
  | advance hstep => exact Pool.finished_advance hstep h
  | call => exact h
  | look hcall hphase => exact h

/-- A push that takes no step stays where it is. -/
theorem push_step (hstep : Step w s w') (hi : i < w.pool.pushes.length) (hs : s ≠ .advance i) :
    w'.pool.pushes[i]? = w.pool.pushes[i]? := by
  cases hstep with
  | spawn => exact Pool.push_spawn hi
  | advance hstep => exact Pool.push_advance hstep fun heq => hs (congrArg _ heq)
  | call => rfl
  | look hcall hphase => rfl

/-- A call that has read a counter had done so before, unless it takes the step. -/
theorem call_step {k a : Nat} (hstep : Step w s w') (hs : s ≠ .look j)
    (hcall : w'.calls[j]? = some ⟨k, .counted a⟩) : w.calls[j]? = some ⟨k, .counted a⟩ := by
  cases hstep with
  | spawn => exact hcall
  | advance hstep => exact hcall
  | call =>
    rw [List.getElem?_append] at hcall
    split at hcall
    · exact hcall
    · cases List.mem_singleton.mp (List.mem_of_getElem? hcall)
  | look hlook hphase =>
    have hne : _ ≠ j := fun heq => hs (congrArg PoolStep.look heq)
    rwa [List.getElem?_set_ne hne] at hcall

/-- A call that takes a step comes to the phase that follows. -/
theorem look_step {k : Nat} {after : DrainPhase} (hstep : Step w (.look j) w')
    (hcall : w'.calls[j]? = some ⟨k, after⟩) : ∃ before, w.calls[j]? = some ⟨k, before⟩ ∧
      before.next? w.pool = some after ∧ w'.pool = w.pool := by
  cases hstep with
  | look hlook hphase =>
    rename_i call phase
    have hlt := (List.getElem?_eq_some_iff.mp hlook).1
    rw [List.getElem?_set_self hlt] at hcall
    cases hcall
    exact ⟨call.phase, hlook, hphase, rfl⟩

/-! ## Runs -/

/-- What every step keeps, every run keeps. -/
theorem run?_keeps {P : WatchedPool → Prop} (hkeeps : ∀ v s v', P v → Step v s v' → P v')
    (h : P w) (hrun : w.run? steps = some w') : P w' := by
  induction steps generalizing w with
  | nil =>
    obtain rfl := Option.some.inj hrun
    exact h
  | cons s steps ih =>
    obtain ⟨w₁, hfirst, hrest⟩ := run?_cons_eq_some.mp hrun
    exact ih (hkeeps w s w₁ h (step_of_step? hfirst)) hrest

theorem Sound.run (h : w.Sound) (hrun : w.run? steps = some w') : w'.Sound :=
  run?_keeps (fun _ _ _ hv hstep => hv.step hstep) h hrun

theorem finished_run (hrun : w.run? steps = some w') (h : w.pool.hasFinished i = true) :
    w'.pool.hasFinished i = true :=
  run?_keeps (P := fun v => v.pool.hasFinished i = true) (fun _ _ _ hv hstep => finished_step hstep hv)
    h hrun

theorem push_run (hrun : w.run? steps = some w') (hi : i < w.pool.pushes.length)
    (hs : .advance i ∉ steps) : w'.pool.pushes[i]? = w.pool.pushes[i]? := by
  induction steps generalizing w with
  | nil =>
    obtain rfl := Option.some.inj hrun
    rfl
  | cons s steps ih =>
    obtain ⟨w₁, hfirst, hrest⟩ := run?_cons_eq_some.mp hrun
    obtain ⟨hne, hs⟩ := not_or.mp (mt List.mem_cons.mpr hs)
    have hsame := push_step (step_of_step? hfirst) hi (Ne.symm hne)
    have hi₁ : i < w₁.pool.pushes.length := by
      rw [List.getElem?_eq_getElem hi] at hsame
      exact (List.getElem?_eq_some_iff.mp hsame).1
    exact (ih hrest hi₁ hs).trans hsame

/-- A call that has read the counter of active pushes did so at some time of the run, and has taken
no step since. -/
theorem read_active {start : WatchedPool} {k a : Nat} (hnone : start.calls = [])
    (hrun : start.run? steps = some w) (hcall : w.calls[j]? = some ⟨k, .counted a⟩) :
    ∃ first between w₁, steps = first ++ .look j :: between ∧ .look j ∉ between ∧
      start.run? first = some w₁ ∧ w₁.run? (.look j :: between) = some w ∧
      w₁.calls[j]? = some ⟨k, .called⟩ ∧ w₁.pool.active = a := by
  induction steps using List.reverseRecOn generalizing w with
  | nil =>
    obtain rfl := Option.some.inj hrun
    rw [hnone] at hcall
    cases hcall
  | append_singleton steps s ih =>
    rw [run?_append_singleton] at hrun
    obtain ⟨v, hbefore, hlast⟩ := Option.bind_eq_some_iff.mp hrun
    have hstep := step_of_step? hlast
    by_cases hs : s = .look j
    · subst hs
      obtain ⟨before, hlook, hnext, -⟩ := look_step hstep hcall
      obtain ⟨rfl, hactive⟩ := DrainPhase.of_counted hnext
      refine ⟨steps, [], v, rfl, List.not_mem_nil, hbefore, ?_, hlook, hactive⟩
      exact run?_cons_eq_some.mpr ⟨w, hlast, rfl⟩
    · obtain ⟨first, between, w₁, rfl, hnot, hfirst, hbetween, hcalled, hactive⟩ :=
        ih hbefore (call_step hstep hs hcall)
      refine ⟨first, between ++ [s], w₁, ?_, ?_, hfirst, ?_, hcalled, hactive⟩
      · rw [List.append_assoc, List.cons_append]
      · rw [List.mem_append, List.mem_singleton]
        rintro (h | h)
        · exact hnot h
        · exact hs h.symm
      · rw [← List.cons_append, run?_append_singleton, hbetween]
        exact hlast

/-- **Drained.** In every run, when a call that waits for the pool returns, each push that was there
before the call has finished, or it started between the two reads of the call: it had not started at
the first, and runs. So a push that takes no step between the two reads has finished. -/
theorem drained_returned (n : Nat) (steps : List PoolStep) (w w' : WatchedPool) (j k : Nat)
    (hrun : (ofWorkers n).run? steps = some w) (hlook : w.step? (.look j) = some w')
    (hreturned : w'.calls[j]? = some ⟨k, .returned⟩) :
    ∃ first between w₁, steps = first ++ .look j :: between ∧ .look j ∉ between ∧
      (ofWorkers n).run? first = some w₁ ∧ w₁.calls[j]? = some ⟨k, .called⟩ ∧
      (∀ i < k, w'.pool.hasFinished i = true ∨
        w₁.pool.isUnstarted i = true ∧ w'.pool.pushes[i]? = some .running) ∧
      ∀ i < k, .advance i ∉ between → w'.pool.hasFinished i = true := by
  obtain ⟨before, hcall, hnext, hpool⟩ := look_step (step_of_step? hlook) hreturned
  obtain ⟨rfl, hqueued⟩ := DrainPhase.of_returned hnext
  obtain ⟨first, between, w₁, hsteps, hnot, hfirst, hbetween, hcalled, hactive⟩ :=
    read_active rfl hrun hcall
  have hsound₁ : w₁.Sound := (Sound.ofWorkers n).run hfirst
  have hsound : w.Sound := (Sound.ofWorkers n).run hrun
  have hspawned₁ : k ≤ w₁.pool.pushes.length := hsound₁.spawned _ (List.mem_of_getElem? hcalled)
  have hspawned : k ≤ w.pool.pushes.length := hsound.spawned _ (List.mem_of_getElem? hcall)
  have hall : ∀ i < k, w'.pool.hasFinished i = true ∨
      w₁.pool.isUnstarted i = true ∧ w'.pool.pushes[i]? = some .running := by
    intro i hi
    rw [hpool]
    have hpush₁ := List.getElem?_eq_getElem (Nat.lt_of_lt_of_le hi hspawned₁)
    have hpush := List.getElem?_eq_getElem (Nat.lt_of_lt_of_le hi hspawned)
    -- No push is in the two phases that count as active at the first read, and none is in those that
    -- count as queued at the second; a push that had finished by the first is finished at the second.
    rcases hsound₁.accounted.idle_active hactive hpush₁ with hunstarted | hfinished
    · rcases hsound.accounted.idle_queued hqueued hpush with hruns | hfinished
      · refine .inr ⟨?_, hpush.trans (congrArg some hruns)⟩
        rw [Pool.isUnstarted, hpush₁]
        exact hunstarted
      · refine .inl ?_
        rw [Pool.hasFinished, hpush]
        exact hfinished
    · refine .inl (finished_run hbetween ?_)
      rw [Pool.hasFinished, hpush₁]
      exact hfinished
  refine ⟨first, between, w₁, hsteps, hnot, hfirst, hcalled, hall, fun i hi hidle => ?_⟩
  rcases hall i hi with hfinished | ⟨hunstarted, hruns⟩
  · exact hfinished
  · have hsame : w.pool.pushes[i]? = w₁.pool.pushes[i]? := by
      refine push_run hbetween (Nat.lt_of_lt_of_le hi hspawned₁) fun hmem => ?_
      rcases List.mem_cons.mp hmem with heq | hmem
      · cases heq
      · exact hidle hmem
    rw [hpool, hsame] at hruns
    rw [Pool.isUnstarted, hruns] at hunstarted
    cases hunstarted

/-- Two pushes for two workers. The first ends before the call reads anything, the second starts
between its two reads. -/
def startingBetween : List PoolStep :=
  [.spawn, .spawn, .call, .advance 0, .advance 0, .advance 0, .advance 0, .look 0, .advance 1,
    .advance 1, .advance 1]

theorem drained_returned_startingBetween :
    let pool : Pool := ⟨2, 0, 1, 0, [.left, .running]⟩
    (ofWorkers 2).run? startingBetween = some ⟨pool, [⟨2, .counted 0⟩]⟩ ∧
    step? ⟨pool, [⟨2, .counted 0⟩]⟩ (.look 0) = some ⟨pool, [⟨2, .returned⟩]⟩ ∧
    pool.hasFinished 0 = true ∧
    ∃ first between w₁, startingBetween = first ++ .look 0 :: between ∧
      (ofWorkers 2).run? first = some w₁ ∧ w₁.pool.isUnstarted 1 = true ∧
      .advance 1 ∈ between := by
  intro pool
  have hrun : (ofWorkers 2).run? startingBetween = some ⟨pool, [⟨2, .counted 0⟩]⟩ := by decide
  have hlook : step? ⟨pool, [⟨2, .counted 0⟩]⟩ (.look 0) = some ⟨pool, [⟨2, .returned⟩]⟩ := by
    decide
  obtain ⟨first, between, w₁, hsteps, -, hfirst, -, hall, hidle⟩ :=
    drained_returned 2 _ _ _ 0 2 hrun hlook rfl
  refine ⟨hrun, hlook, ?_, first, between, w₁, hsteps, hfirst, ?_, ?_⟩
  · exact (hall 0 (by decide)).resolve_right fun h => absurd h.2 (by decide)
  · exact ((hall 1 (by decide)).resolve_left (by decide)).1
  · exact Classical.not_not.mp fun hnot => absurd (hidle 1 (by decide) hnot) (by decide)

/-- A call may return while a push that was there before it runs: the push is not active yet at the
first read and not queued any more at the second. -/
theorem drained_too_early :
    ¬ ∀ (n : Nat) (steps : List PoolStep) (w : WatchedPool), (ofWorkers n).run? steps = some w →
      ∀ call ∈ w.calls, call.phase = .returned → ∀ i < call.spawned,
        w.pool.hasFinished i = true := by
  intro h
  have hrun : (ofWorkers 1).run? [.spawn, .call, .look 0, .advance 0, .advance 0, .advance 0,
      .look 0] = some ⟨⟨1, 0, 1, 0, [.running]⟩, [⟨1, .returned⟩]⟩ := by decide
  have hfinished := h 1 _ _ hrun ⟨1, .returned⟩ List.mem_cons_self rfl 0 Nat.zero_lt_one
  exact absurd hfinished (by decide)

end WatchedPool
end TransitPush
