import TransitPush.Delivery.Pool
/-!
# What the counters of the pool count

The pool keeps no list of its pushes, only two counters and the permits that are left. Each of them is
written in a step of its own, so between two steps of a push they may be apart from each other, but
each of them always says how many pushes are in certain phases.

* `Pool.Advances`: what one step of a push does to its phase and to the counters.
* `Pool.Accounted`: the counters agree with the phases; every step keeps this.
* `Pool.finished_advance`: a push that has finished stays so.
-/
namespace TransitPush

namespace Phase

def isQueued : Phase → Bool
  | waiting | admitted | entered => true
  | running | left | done => false

def isActive : Phase → Bool
  | entered | running => true
  | waiting | admitted | left | done => false

def holdsPermit : Phase → Bool
  | admitted | entered | running | left => true
  | waiting | done => false

def isUnstarted : Phase → Bool
  | waiting | admitted => true
  | entered | running | left | done => false

/-- The push has ended, and counts no more. -/
def isFinished : Phase → Bool
  | left | done => true
  | waiting | admitted | entered | running => false

def next? : Phase → Option Phase
  | waiting => some admitted
  | admitted => some entered
  | entered => some running
  | running => some left
  | left => some done
  | done => none

/-- A push that does not count as active has not started or has finished. -/
theorem unstarted_or_finished {phase : Phase} (h : phase.isActive = false) :
    phase.isUnstarted = true ∨ phase.isFinished = true := by
  cases phase <;> first | exact .inl rfl | exact .inr rfl | cases h

/-- A push that does not count as queued runs or has finished. -/
theorem running_or_finished {phase : Phase} (h : phase.isQueued = false) :
    phase = running ∨ phase.isFinished = true := by
  cases phase <;> first | exact .inl rfl | exact .inr rfl | cases h

theorem finished_next {before after : Phase} (h : before.next? = some after)
    (hfinished : before.isFinished = true) : after.isFinished = true := by
  cases before <;> cases h <;> first | rfl | cases hfinished

end Phase

/-- A list with one element set counts what it counted before, less the old element, and the new. -/
theorem countP_set_add {α : Type} {f : α → Bool} {before after : α} {l : List α} {i : Nat}
    (h : l[i]? = some before) :
    (l.set i after).countP f + (f before).toNat = l.countP f + (f after).toNat := by
  induction l generalizing i with
  | nil => cases h
  | cons a l ih =>
    have hcons : ∀ b (l : List α), (b :: l).countP f = l.countP f + (f b).toNat := fun b l => by
      rw [List.countP_cons]
      cases f b <;> rfl
    cases i with
    | zero =>
      obtain rfl : a = before := Option.some.inj h
      rw [List.set_cons_zero, hcons, hcons]
      omega
    | succ i =>
      have hrest := ih (i := i) h
      rw [List.set_cons_succ, hcons, hcons]
      omega

namespace Pool

variable {p p' : Pool} {i k : Nat}

/-! ## One step of a push -/

/-- One step of a push: it comes to the phase that follows, and each counter goes up or down by what
the two phases count for. -/
structure Advances (p p' : Pool) (i : Nat) (before after : Phase) : Prop where
  found : p.pushes[i]? = some before
  follows : before.next? = some after
  pushes : p'.pushes = p.pushes.set i after
  workers : p'.workers = p.workers
  active : p'.active = p.active + after.isActive.toNat - before.isActive.toNat
  queued : p'.queued = p.queued + after.isQueued.toNat - before.isQueued.toNat
  permits : p'.permits = p.permits + before.holdsPermit.toNat - after.holdsPermit.toNat
  permitted : after.holdsPermit.toNat ≤ p.permits + before.holdsPermit.toNat

theorem advances (h : p.advance? i = some p') : ∃ before after, p.Advances p' i before after := by
  unfold advance? at h
  cases hphase : p.pushes[i]? with
  | none =>
    rw [hphase] at h
    cases h
  | some phase =>
    rw [hphase] at h
    refine ⟨phase, ?_⟩
    cases phase with
    | waiting =>
      dsimp only at h
      split at h
      · cases h
      · cases h
        exact ⟨.admitted, hphase, rfl, rfl, rfl, rfl, rfl, rfl, Nat.pos_of_ne_zero ‹_›⟩
    | admitted =>
      cases h
      exact ⟨.entered, hphase, rfl, rfl, rfl, rfl, rfl, rfl, Nat.le_add_left 1 _⟩
    | entered =>
      cases h
      exact ⟨.running, hphase, rfl, rfl, rfl, rfl, rfl, rfl, Nat.le_add_left 1 _⟩
    | running =>
      cases h
      exact ⟨.left, hphase, rfl, rfl, rfl, rfl, rfl, rfl, Nat.le_add_left 1 _⟩
    | left =>
      cases h
      exact ⟨.done, hphase, rfl, rfl, rfl, rfl, rfl, rfl, Nat.zero_le _⟩
    | done => cases h

/-! ## What the counters count -/

/-- The counters say how many pushes count as active and as queued, and the permits that are left and
those that pushes have are as many as there are workers. -/
structure Accounted (p : Pool) : Prop where
  active : p.active = p.pushes.countP Phase.isActive
  queued : p.queued = p.pushes.countP Phase.isQueued
  permits : p.permits + p.pushes.countP Phase.holdsPermit = p.workers

namespace Accounted

theorem ofWorkers (n : Nat) : Accounted (Pool.ofWorkers n) :=
  ⟨rfl, rfl, rfl⟩

theorem spawn (h : p.Accounted) : p.spawn.Accounted := by
  have hadd : ∀ f : Phase → Bool,
      (p.pushes ++ [Phase.waiting]).countP f = p.pushes.countP f + (f .waiting).toNat := fun f => by
    rw [List.countP_append, List.countP_singleton]
    cases f .waiting <;> rfl
  refine ⟨?_, ?_, ?_⟩
  · exact h.active.trans (hadd Phase.isActive).symm
  · exact (congrArg (· + 1) h.queued).trans (hadd Phase.isQueued).symm
  · exact (congrArg (p.permits + ·) (hadd Phase.holdsPermit)).trans h.permits

theorem advance (h : p.Accounted) (hstep : p.advance? i = some p') : p'.Accounted := by
  obtain ⟨before, after, hadv⟩ := advances hstep
  obtain ⟨hactive, hqueued, hpermits⟩ := h
  have hset : ∀ f : Phase → Bool,
      p'.pushes.countP f + (f before).toNat = p.pushes.countP f + (f after).toNat := fun f => by
    rw [hadv.pushes]
    exact countP_set_add hadv.found
  refine ⟨?_, ?_, ?_⟩
  · rw [hadv.active, hactive, ← hset, Nat.add_sub_cancel]
  · rw [hadv.queued, hqueued, ← hset, Nat.add_sub_cancel]
  · have hholders := hset Phase.holdsPermit
    have hleft := hadv.permits
    have henough := hadv.permitted
    rw [hadv.workers]
    omega

/-- If the counter of active pushes is 0, every push has not started or has finished. -/
theorem idle_active (h : p.Accounted) (hzero : p.active = 0) {phase : Phase}
    (hpush : p.pushes[i]? = some phase) : phase.isUnstarted = true ∨ phase.isFinished = true := by
  rw [h.active, List.countP_eq_zero] at hzero
  exact Phase.unstarted_or_finished
    (Bool.eq_false_iff.mpr (hzero phase (List.mem_of_getElem? hpush)))

/-- If the counter of queued pushes is 0, every push runs or has finished. -/
theorem idle_queued (h : p.Accounted) (hzero : p.queued = 0) {phase : Phase}
    (hpush : p.pushes[i]? = some phase) : phase = .running ∨ phase.isFinished = true := by
  rw [h.queued, List.countP_eq_zero] at hzero
  exact Phase.running_or_finished
    (Bool.eq_false_iff.mpr (hzero phase (List.mem_of_getElem? hpush)))

end Accounted

/-! ## One push -/

def hasFinished (p : Pool) (i : Nat) : Bool :=
  p.pushes[i]?.any Phase.isFinished

def isUnstarted (p : Pool) (i : Nat) : Bool :=
  p.pushes[i]?.any Phase.isUnstarted

theorem push_spawn (hk : k < p.pushes.length) : p.spawn.pushes[k]? = p.pushes[k]? :=
  List.getElem?_append_left hk

theorem push_advance (hstep : p.advance? i = some p') (hne : i ≠ k) :
    p'.pushes[k]? = p.pushes[k]? := by
  obtain ⟨before, after, hadv⟩ := advances hstep
  rw [hadv.pushes, List.getElem?_set_ne hne]

theorem length_advance (hstep : p.advance? i = some p') :
    p'.pushes.length = p.pushes.length := by
  obtain ⟨before, after, hadv⟩ := advances hstep
  rw [hadv.pushes, List.length_set]

/-- A push that has finished has been spawned. -/
theorem lt_of_finished (h : p.hasFinished k = true) : k < p.pushes.length := by
  unfold hasFinished at h
  cases hpush : p.pushes[k]? with
  | none =>
    rw [hpush] at h
    cases h
  | some phase => exact (List.getElem?_eq_some_iff.mp hpush).1

theorem finished_spawn (h : p.hasFinished k = true) : p.spawn.hasFinished k = true := by
  rw [hasFinished, push_spawn (lt_of_finished h)]
  exact h

/-- A push that has finished stays so. -/
theorem finished_advance (hstep : p.advance? i = some p') (h : p.hasFinished k = true) :
    p'.hasFinished k = true := by
  unfold hasFinished at h ⊢
  by_cases hne : i = k
  · subst hne
    obtain ⟨before, after, hadv⟩ := advances hstep
    obtain ⟨hlt, -⟩ := List.getElem?_eq_some_iff.mp hadv.found
    rw [hadv.found, Option.any_some] at h
    rw [hadv.pushes, List.getElem?_set_self hlt, Option.any_some]
    exact Phase.finished_next hadv.follows h
  · rw [push_advance hstep hne]
    exact h

end Pool
end TransitPush
