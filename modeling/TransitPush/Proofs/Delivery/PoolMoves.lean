import Mathlib.Data.List.Induction
import TransitPush.Proofs.Delivery.PoolRun
/-!
# Runs of the pool

Pushes are spawned and take their steps in any order, one step at a time, and each ends by returning or
by a panic, in which the same things are cleaned up in the same order. Whatever the order, the pool runs
no more pushes than it has workers, and its counters are right up to the one step between the two
counts of a push that starts.

* `PoolMove`: the steps, each named by what it does and by the push that takes it.
* `Pool.Moved`: what a move does; `Pool.Audit`: what every run keeps.
* `Pool.Audit.made`: a push makes each of its moves at most once, in their order.
* `Pool.all_done`: as long as a push is not done, some push can take a step.
* `Pool.moves_accounted`: bounds and counters in every state of every run. Permits come back one step
  after the counters: `Pool.moves_accounted_permitOut`.
-/
namespace TransitPush

inductive Ending where
  | returned
  | panicked
deriving DecidableEq

/-- A push is spawned; it gets a permit, counts as active, counts no longer as queued and runs, counts
no longer as active, and gives its permit back. -/
inductive PoolMove where
  | spawn
  | acquire (i : Nat)
  | enter (i : Nat)
  | begin (i : Nat)
  | finish (i : Nat) (how : Ending)
  | release (i : Nat)
deriving DecidableEq

/-- The push that makes the move, and the phase in which it makes it. -/
def PoolMove.from? : PoolMove → Option (Nat × Phase)
  | spawn => none
  | acquire i => some (i, .waiting)
  | enter i => some (i, .admitted)
  | begin i => some (i, .entered)
  | finish i _ => some (i, .running)
  | release i => some (i, .left)

namespace Phase

def rank : Phase → Nat
  | waiting => 0
  | admitted => 1
  | entered => 2
  | running => 3
  | left => 4
  | done => 5

theorem rank_inj {a b : Phase} (h : a.rank = b.rank) : a = b := by
  cases a <;> cases b <;> grind [rank]

theorem rank_next {before after : Phase} (h : before.next? = some after) :
    after.rank = before.rank + 1 := by
  cases before <;> cases h <;> rfl

theorem finished_iff {phase : Phase} : phase.isFinished = true ↔ running.rank < phase.rank := by
  cases phase <;> decide

theorem holdsPermit_of_active {phase : Phase} (h : phase.isActive = true) :
    phase.holdsPermit = true := by
  cases phase with
  | entered | running => rfl
  | waiting | admitted | left | done => cases h

/-- A push that has finished counts no more, but may have its permit still. -/
theorem uncounted {phase : Phase} (h : phase.isFinished = true) : phase.isActive = false ∧
    phase.isQueued = false ∧ phase.holdsPermit = (phase == left) := by
  cases phase with
  | left | done => exact ⟨rfl, rfl, rfl⟩
  | waiting | admitted | entered | running => cases h

/-- Only a push that has entered and does not run yet counts twice. -/
theorem countP_active_queued (l : List Phase) : l.countP isActive + l.countP isQueued =
    l.countP (fun phase => !phase.isFinished) + l.count entered := by
  induction l with
  | nil => rfl
  | cons phase l ih =>
    have hone : (if phase.isActive then 1 else 0) + (if phase.isQueued then 1 else 0) =
        (if !phase.isFinished then 1 else 0) + if phase == entered then 1 else 0 := by
      cases phase <;> rfl
    rw [List.countP_cons, List.countP_cons, List.countP_cons, List.count_cons]
    omega

end Phase

namespace Pool

def move? (p : Pool) (m : PoolMove) : Option Pool :=
  match m.from? with
  | none => some p.spawn
  | some (i, phase) => if p.pushes[i]? = some phase then p.advance? i else none

def moves? (p : Pool) : List PoolMove → Option Pool
  | [] => some p
  | m :: moves => (p.move? m).bind fun p => p.moves? moves

def unfinished (p : Pool) : Nat :=
  p.pushes.countP fun phase => !phase.isFinished

/-- How many moves a push has made; none if it was not spawned. -/
def rank (p : Pool) (i : Nat) : Nat :=
  (p.pushes[i]?.map Phase.rank).getD 0

variable {p p' : Pool} {m : PoolMove} {moves : List PoolMove} {i k : Nat} {phase : Phase} {n : Nat}

theorem moves?_append_singleton :
    p.moves? (moves ++ [m]) = (p.moves? moves).bind fun p => p.move? m := by
  induction moves generalizing p with
  | nil => exact Option.bind_fun_some (p.move? m)
  | cons first moves ih =>
    rw [List.cons_append, moves?, moves?, Option.bind_assoc]
    exact congrArg _ (funext fun p => ih)

/-! ## One move -/

inductive Moved (p : Pool) : PoolMove → Pool → Prop
  | spawn : Moved p .spawn p.spawn
  | advance {m : PoolMove} {i : Nat} {before after : Phase} {p' : Pool}
      (of : m.from? = some (i, before)) (step : p.advance? i = some p')
      (advances : p.Advances p' i before after) : Moved p m p'

theorem moved_of_move? (h : p.move? m = some p') : p.Moved m p' := by
  unfold move? at h
  split at h
  · rename_i hfrom
    obtain rfl := Option.some.inj h
    cases m with
    | spawn => exact .spawn
    | acquire _ | enter _ | begin _ | finish _ _ | release _ => cases hfrom
  · rename_i i phase hfrom
    obtain ⟨hfound, hstep⟩ := Option.ite_none_right_eq_some.mp h
    obtain ⟨before, after, hadv⟩ := advances hstep
    obtain rfl := Option.some.inj (hfound.symm.trans hadv.found)
    exact .advance hfrom hstep hadv

theorem rank_spawn : p.spawn.rank k = p.rank k := by
  unfold rank
  by_cases hk : k < p.pushes.length
  · rw [push_spawn hk]
  · have hnone := List.getElem?_eq_none (Nat.not_lt.mp hk)
    rw [hnone, spawn, List.getElem?_append_right (Nat.not_lt.mp hk)]
    cases k - p.pushes.length <;> rfl

theorem rank_advance {before after : Phase} (h : p.Advances p' i before after) :
    p.rank i = before.rank ∧ p'.rank i = before.rank + 1 := by
  obtain ⟨hlt, -⟩ := List.getElem?_eq_some_iff.mp h.found
  unfold rank
  rw [h.found, h.pushes, List.getElem?_set_self hlt, ← Phase.rank_next h.follows]
  exact ⟨rfl, rfl⟩

/-! ## All moves of a run -/

/-- What a run of a pool keeps: the counters agree with the phases, there are as many pushes as were
spawned, and each push has made the moves of the phases that it left, once each. -/
structure Audit (n : Nat) (moves : List PoolMove) (p : Pool) : Prop where
  accounted : p.Accounted
  workers : p.workers = max n 1
  spawned : p.pushes.length = moves.count .spawn
  made : ∀ i (phase : Phase), moves.countP (fun m => m.from? = some (i, phase)) =
    if phase.rank < p.rank i then 1 else 0

namespace Audit

theorem ofWorkers (n : Nat) : Audit n [] (Pool.ofWorkers n) :=
  ⟨.ofWorkers n, rfl, rfl, fun _ _ => rfl⟩

theorem spawn (h : Audit n moves p) : Audit n (moves ++ [.spawn]) p.spawn := by
  refine ⟨h.accounted.spawn, h.workers, ?_, fun i phase => ?_⟩
  · rw [List.count_append, List.count_singleton_self, ← h.spawned]
    exact List.length_append
  · rw [List.countP_append, h.made, rank_spawn]
    rfl

theorem advance {before after : Phase} (h : Audit n moves p) (hfrom : m.from? = some (i, before))
    (hstep : p.advance? i = some p') (hadv : p.Advances p' i before after) :
    Audit n (moves ++ [m]) p' := by
  have hne : m ≠ .spawn := by
    rintro rfl
    cases hfrom
  refine ⟨h.accounted.advance hstep, hadv.workers.trans h.workers, ?_, fun k phase => ?_⟩
  · rw [List.count_append, List.count_singleton, beq_eq_false_iff_ne.mpr hne, length_advance hstep]
    exact h.spawned
  · rw [List.countP_append, h.made, List.countP_singleton, hfrom]
    by_cases hk : i = k
    · subst hk
      obtain ⟨hold, hnew⟩ := rank_advance hadv
      rw [hold, hnew]
      by_cases hphase : before = phase
      · subst hphase
        simp
      · have hrank : before.rank ≠ phase.rank := fun hsame => hphase (Phase.rank_inj hsame)
        have hsame : phase.rank < before.rank + 1 ↔ phase.rank < before.rank := by omega
        simp [hphase, hsame]
    · have hrank : p'.rank k = p.rank k := by
        unfold rank
        rw [push_advance hstep hk]
      simp [hrank, hk]

theorem run (h : (Pool.ofWorkers n).moves? moves = some p) : Audit n moves p := by
  induction moves using List.reverseRecOn generalizing p with
  | nil =>
    obtain rfl := Option.some.inj h
    exact ofWorkers n
  | append_singleton moves m ih =>
    rw [moves?_append_singleton] at h
    obtain ⟨q, hrun, hmove⟩ := Option.bind_eq_some_iff.mp h
    cases moved_of_move? hmove with
    | spawn => exact (ih hrun).spawn
    | advance hfrom hstep hadv => exact (ih hrun).advance hfrom hstep hadv

/-- A push that counts as queued after it has entered, and one that counts as active, is counted. -/
theorem counted (h : Audit n moves p) (hpush : p.pushes[i]? = some phase) :
    (phase.isQueued = true → 0 < p.queued) ∧ (phase.isActive = true → 0 < p.active) := by
  have hmem := List.mem_of_getElem? hpush
  rw [h.accounted.queued, h.accounted.active]
  exact ⟨fun hq => List.countP_pos_iff.mpr ⟨phase, hmem, hq⟩,
    fun ha => List.countP_pos_iff.mpr ⟨phase, hmem, ha⟩⟩

/-- Whoever has one of the permits counts among the workers. -/
theorem countP_le (h : Audit n moves p) {f : Phase → Bool}
    (hf : ∀ phase, f phase = true → phase.holdsPermit = true) : p.pushes.countP f ≤ max n 1 := by
  have hle : p.pushes.countP f ≤ p.pushes.countP Phase.holdsPermit :=
    List.countP_mono_left fun phase _ => hf phase
  have hpermits := h.accounted.permits
  rw [h.workers] at hpermits
  omega

theorem begun_le (h : Audit n moves p) (i : Nat) : moves.count (.begin i) ≤ 1 := by
  have hmade := h.made i .entered
  have hsame : moves.count (.begin i) =
      moves.countP fun m => m.from? = some (i, Phase.entered) := by
    refine List.countP_congr fun m _ => ?_
    cases m <;> simp [PoolMove.from?]
  rw [hsame, hmade]
  split <;> decide

theorem finished_iff (h : Audit n moves p) (i : Nat) :
    p.hasFinished i = true ↔ ∃ how, .finish i how ∈ moves := by
  have hmade := h.made i .running
  have hrank : p.hasFinished i = true ↔ Phase.running.rank < p.rank i := by
    unfold hasFinished rank
    cases p.pushes[i]? with
    | none => simp
    | some phase => exact Phase.finished_iff
  rw [hrank]
  constructor
  · intro hlt
    rw [if_pos hlt] at hmade
    obtain ⟨m, hm, hfrom⟩ := List.countP_pos_iff.mp (hmade ▸ Nat.one_pos)
    cases m with
    | finish j how =>
      cases of_decide_eq_true hfrom
      exact ⟨how, hm⟩
    | spawn | acquire _ | enter _ | begin _ | release _ => cases of_decide_eq_true hfrom
  · rintro ⟨how, hm⟩
    by_contra hnot
    rw [if_neg hnot, List.countP_eq_zero] at hmade
    exact hmade _ hm (decide_eq_true rfl)

/-- Nothing counts once all have finished, but the permits of those that did not give them back. -/
theorem idle (h : Audit n moves p) (hall : ∀ phase ∈ p.pushes, phase.isFinished = true) :
    p.active = 0 ∧ p.queued = 0 ∧ p.permits + p.pushes.count .left = max n 1 := by
  have huncounted := fun phase hmem => Phase.uncounted (hall phase hmem)
  have hleft : p.pushes.count .left = p.pushes.countP Phase.holdsPermit :=
    List.countP_congr fun phase hmem => by rw [(huncounted phase hmem).2.2]
  refine ⟨?_, ?_, ?_⟩
  · rw [h.accounted.active, List.countP_eq_zero]
    exact fun phase hmem => Bool.eq_false_iff.mp (huncounted phase hmem).1
  · rw [h.accounted.queued, List.countP_eq_zero]
    exact fun phase hmem => Bool.eq_false_iff.mp (huncounted phase hmem).2.1
  · rw [hleft, h.accounted.permits, h.workers]

/-- All permits are back once all pushes have taken their last step. -/
theorem returned (h : Audit n moves p) (hdone : ∀ phase ∈ p.pushes, phase = .done) :
    p.active = 0 ∧ p.queued = 0 ∧ p.permits = max n 1 := by
  obtain ⟨hactive, hqueued, hpermits⟩ := h.idle fun phase hmem => hdone phase hmem ▸ rfl
  have hleft : p.pushes.count .left = 0 :=
    List.count_eq_zero.mpr fun hmem => absurd (hdone _ hmem) (by decide)
  rw [hleft, Nat.add_zero] at hpermits
  exact ⟨hactive, hqueued, hpermits⟩

end Audit

/-! ## The end of a run -/

theorem advance?_of_holdsPermit (hpush : p.pushes[i]? = some phase)
    (hholds : phase.holdsPermit = true) : p.advance? i ≠ none := by
  unfold advance?
  rw [hpush]
  cases phase with
  | admitted | entered | running | left => exact Option.some_ne_none _
  | waiting | done => cases hholds

/-- As long as a push is not done, some push can take a step: if all permits are taken, then one that
has a permit. -/
theorem all_done (h : p.Accounted) (hworkers : 0 < p.workers) (hstill : ∀ i, p.advance? i = none) :
    ∀ phase ∈ p.pushes, phase = .done := by
  have hfree : p.pushes.countP Phase.holdsPermit = 0 := by
    refine List.countP_eq_zero.mpr fun phase hmem hholds => ?_
    obtain ⟨i, hpush⟩ := List.getElem?_of_mem hmem
    exact advance?_of_holdsPermit hpush hholds (hstill i)
  have hpermits : p.permits ≠ 0 := by
    have hsum := h.permits
    omega
  intro phase hmem
  have hholds := List.countP_eq_zero.mp hfree phase hmem
  cases phase with
  | waiting =>
    obtain ⟨i, hpush⟩ := List.getElem?_of_mem hmem
    have hnone := hstill i
    unfold advance? at hnone
    rw [hpush] at hnone
    exact absurd hnone (by simp [hpermits])
  | admitted | entered | running | left => exact absurd rfl hholds
  | done => rfl

/-- **The account of the pool.** In every state of every run, with any number of workers configured,
even none, and pushes that end in either way: at most as many pushes run, and count as active, as there
are workers, which is at least one. No counter goes down from zero. Together the counters are as many as
the pushes that have not finished, and one more for each push that is between its two counts. A push
begins at most once. When all pushes have finished, both counters are zero, and only the permits are
missing whose pushes have not taken their last step; when all have taken it, all permits are back. That
is so as soon as none can take a step any more. -/
theorem moves_accounted (n : Nat) (moves : List PoolMove) (p : Pool)
    (hrun : (ofWorkers n).moves? moves = some p) :
    p.pushes.count .running ≤ max n 1 ∧ p.active ≤ max n 1 ∧
    (∀ i : Nat, (p.pushes[i]? = some .entered → 0 < p.queued) ∧
      (p.pushes[i]? = some .running → 0 < p.active)) ∧
    p.active + p.queued = p.unfinished + p.pushes.count .entered ∧
    p.pushes.length = moves.count .spawn ∧
    (∀ i, p.hasFinished i = true ↔ ∃ how, .finish i how ∈ moves) ∧
    (∀ i, moves.count (.begin i) ≤ 1) ∧
    ((∀ phase ∈ p.pushes, phase.isFinished = true) →
      p.active = 0 ∧ p.queued = 0 ∧ p.permits + p.pushes.count .left = max n 1) ∧
    ((∀ phase ∈ p.pushes, phase = .done) →
      p.active = 0 ∧ p.queued = 0 ∧ p.permits = max n 1) ∧
    ((∀ i, p.advance? i = none) → ∀ phase ∈ p.pushes, phase = .done) := by
  have h := Audit.run hrun
  refine ⟨h.countP_le fun phase hrunning => ?_, ?_, fun i => ⟨fun hpush => (h.counted hpush).1 rfl,
    fun hpush => (h.counted hpush).2 rfl⟩, ?_, h.spawned, h.finished_iff, h.begun_le, h.idle,
    h.returned, all_done h.accounted ?_⟩
  · rw [beq_iff_eq.mp hrunning]
    rfl
  · rw [h.accounted.active]
    exact h.countP_le fun phase => Phase.holdsPermit_of_active
  · rw [h.accounted.active, h.accounted.queued]
    exact Phase.countP_active_queued _
  · rw [h.workers]
    exact Nat.lt_of_lt_of_le Nat.one_pos (Nat.le_max_right n 1)

/-- The only push has finished, and has not given its permit back yet. -/
theorem moves_accounted_permitOut :
    let moves : List PoolMove := [.spawn, .acquire 0, .enter 0, .begin 0, .finish 0 .returned]
    ∃ p, (ofWorkers 1).moves? moves = some p ∧ moves.count .spawn = 1 ∧ p.hasFinished 0 = true ∧
      p.active = 0 ∧ p.queued = 0 ∧ p.permits = 0 ∧ p.permits ≠ max 1 1 := by
  intro moves
  have hp : (ofWorkers 1).moves? moves = some ⟨1, 0, 0, 0, [.left]⟩ := rfl
  exact ⟨_, hp, by decide, rfl, rfl, rfl, rfl, by decide⟩

/-- Two pushes of a pool without workers of its own. The first one panics while the second waits for
its permit. -/
def panicAndReturn : List PoolMove :=
  [.spawn, .spawn, .acquire 1, .enter 1, .begin 1, .finish 1 .panicked, .release 1, .acquire 0,
    .enter 0, .begin 0, .finish 0 .returned]

theorem moves_accounted_panicAndReturn :
    ∃ p p', (ofWorkers 0).moves? panicAndReturn = some p ∧
      (p.active = 0 ∧ p.queued = 0 ∧ p.permits + p.pushes.count .left = 1) ∧ p.permits = 0 ∧
      (ofWorkers 0).moves? (panicAndReturn ++ [.release 0]) = some p' ∧ p'.permits = 1 := by
  have hp : (ofWorkers 0).moves? panicAndReturn = some ⟨1, 0, 0, 0, [.left, .done]⟩ := rfl
  have hp' : (ofWorkers 0).moves? (panicAndReturn ++ [.release 0]) =
      some ⟨1, 1, 0, 0, [.done, .done]⟩ := rfl
  have hstill : ∀ i, (⟨1, 1, 0, 0, [.done, .done]⟩ : Pool).advance? i = none := by
    intro i
    match i with
    | 0 | 1 | _ + 2 => rfl
  obtain ⟨-, -, -, -, -, -, -, hidle, -⟩ := moves_accounted 0 _ _ hp
  obtain ⟨-, -, -, -, -, -, -, -, hback, hend⟩ := moves_accounted 0 _ _ hp'
  exact ⟨_, _, hp, hidle (by decide), rfl, hp', (hback (hend hstill)).2.2⟩

end Pool
end TransitPush
