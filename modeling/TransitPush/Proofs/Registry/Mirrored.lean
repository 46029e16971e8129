import TransitPush.Proofs.Registry.Saving
import TransitPush.Proofs.Store.Mirrors
/-!
# The registry over either kind of store

The registry records the answers to pushes by changing subscriptions: in place, if the store has a way
of its own to do that, else by putting a changed copy back. Over a store that mirrors the one in memory
it records what it records in memory, but for what the store refuses to write.

* `Registry.Mirrored`: two registries that differ in their stores only, of which one mirrors the other.
* `Mirrored.recordSuccess`, `Mirrored.recordFailure`: one answer to a push.
* `Mirrored.settledAll`: any number of answers, over a store that refuses nothing.
* `change_either_way`: the two ways to change a subscription, and what the registry makes of them.
-/
namespace TransitPush

namespace Registry

/-- A registry over a store that mirrors the one in memory, and one over that. All else they have in
common. -/
structure Mirrored {σ : Type} (R : σ → MemoryStore → Prop) (r : Registry σ)
    (q : Registry MemoryStore) : Prop where
  store : R r.store q.store
  schedule : r.schedule = q.schedule
  ids : r.ids = q.ids
  failureLimit : r.failureLimit = q.failureLimit

/-- Stores that mirror one another in the place of those there were. -/
theorem Mirrored.withStore {σ : Type} {R : σ → MemoryStore → Prop} {r : Registry σ}
    {q : Registry MemoryStore} (h : Mirrored R r q) {store : σ} {m : MemoryStore} (hR : R store m) :
    Mirrored R { r with store } { q with store := m } :=
  ⟨hR, h.schedule, h.ids, h.failureLimit⟩

variable {σ : Type} [SubscriptionStore σ] {R : σ → MemoryStore → Prop} {r : Registry σ}
  {q : Registry MemoryStore}

/-- A success is recorded alike, unless the store of the first registry refuses to put the subscription
back. -/
def SuccessAlike (R : σ → MemoryStore → Prop) (r : Registry σ) (q : Registry MemoryStore)
    (id : SubscriptionId) : Prop :=
  (∃ message, RefusesChange r.store id Subscription.clearFailures message ∧
    r.recordSuccess id = .error (.store (.backend message))) ∨
  ∃ r' q', r.recordSuccess id = .ok r' ∧ q.recordSuccess id = .ok q' ∧ Mirrored R r' q'

/-- A failure is recorded alike, unless the store of the first registry refuses to put the subscription
back, and then nothing changes, or to remove it, and then its failures stay counted. -/
def FailureAlike (R : σ → MemoryStore → Prop) (r : Registry σ) (q : Registry MemoryStore)
    (id : SubscriptionId) : Prop :=
  (∃ message, RefusesChange r.store id Subscription.countFailure message ∧
    r.recordFailure id = (.error (.store (.backend message)), r)) ∨
  (∃ counted message, SubscriptionStore.remove counted.store id = .error (.backend message) ∧
    r.recordFailure id = (.error (.store (.backend message)), counted) ∧
    Mirrored R counted (q.changed id Subscription.countFailure)) ∨
  (r.recordFailure id).1 = (q.recordFailure id).1 ∧
    Mirrored R (r.recordFailure id).2 (q.recordFailure id).2

def settledAll (r : Registry σ) (outcomes : List (SubscriptionId × Outcome)) : Registry σ :=
  outcomes.foldl (fun r o => r.settled o.1 o.2) r

/-! ## A failure, over any store -/

section Failures

variable {id : SubscriptionId} {s : Subscription} {store : σ}

theorem recordFailure_of_refused {e : StoreError}
    (hmodify : SubscriptionStore.modify r.store id Subscription.countFailure = .error e) :
    r.recordFailure id = (.error (.store e), r) := by
  unfold Registry.recordFailure
  rw [hmodify]

theorem recordFailure_of_none
    (hmodify : SubscriptionStore.modify r.store id Subscription.countFailure = .ok (none, store)) :
    r.recordFailure id = (.ok .unknown, { r with store }) := by
  unfold Registry.recordFailure
  rw [hmodify]

theorem recordFailure_of_le
    (hmodify : SubscriptionStore.modify r.store id Subscription.countFailure = .ok (some s, store))
    (hlimit : s.failedPushes ≤ r.failureLimit) :
    r.recordFailure id = (.ok (.counted s.failedPushes), { r with store }) := by
  unfold Registry.recordFailure
  rw [hmodify]
  exact if_pos hlimit

theorem recordFailure_of_removed {found : Option Subscription} {r' : Registry σ}
    (hmodify : SubscriptionStore.modify r.store id Subscription.countFailure = .ok (some s, store))
    (hover : ¬ s.failedPushes ≤ r.failureLimit)
    (hremove : Registry.remove { r with store } id = .ok (found, r')) :
    r.recordFailure id = (.ok (.removed s.failedPushes), r') := by
  unfold Registry.recordFailure
  rw [hmodify]
  dsimp only
  rw [if_neg hover, hremove]

/-- The failure stays counted if the subscription cannot be removed. -/
theorem recordFailure_of_kept {e : RegistryError}
    (hmodify : SubscriptionStore.modify r.store id Subscription.countFailure = .ok (some s, store))
    (hover : ¬ s.failedPushes ≤ r.failureLimit)
    (hremove : Registry.remove { r with store } id = .error e) :
    r.recordFailure id = (.error e, { r with store }) := by
  unfold Registry.recordFailure
  rw [hmodify]
  dsimp only
  rw [if_neg hover, hremove]

end Failures

namespace Mirrored

theorem get? (h : Mirrored R r q) (hm : Mirrors R) (id : SubscriptionId) :
    SubscriptionStore.get? r.store id = q.store.subscriptions.get? id :=
  (hm.answers h.store).get? id

theorem remove (h : Mirrored R r q) (hm : Mirrors R) (hc : q.store.Consistent)
    (id : SubscriptionId) :
    (∃ message, SubscriptionStore.remove r.store id = .error (.backend message) ∧
      r.remove id = .error (.store (.backend message))) ∨
    ∃ r', r.remove id = .ok ((q.store.remove id).1, r') ∧ Mirrored R r' (q.without id) := by
  unfold Registry.remove
  rcases hm.remove h.store hc id with ⟨message, hremove⟩ | ⟨store, hremove, hR⟩
  · exact .inl ⟨message, hremove, by rw [hremove]⟩
  · rw [hremove]
    exact .inr ⟨_, rfl, hR, by rw [h.schedule]; rfl, h.ids, h.failureLimit⟩

/-! ## One answer -/

theorem recordSuccess (h : Mirrored R r q) (hm : Mirrors R) (hc : q.store.Consistent)
    (id : SubscriptionId) : SuccessAlike R r q id := by
  have hkeeps : KeepsId q.store id Subscription.clearFailures := hc.keepsId (fun _ => rfl) id
  unfold SuccessAlike Registry.recordSuccess
  rw [h.get? hm id, show SubscriptionStore.get? q.store id = q.store.subscriptions.get? id from rfl]
  cases q.store.subscriptions.get? id with
  | none => exact .inr ⟨r, q, rfl, rfl, h⟩
  | some s =>
    dsimp only
    by_cases hzero : s.failedPushes = 0
    · rw [if_pos hzero, if_pos hzero]
      exact .inr ⟨r, q, rfl, rfl, h⟩
    · rw [if_neg hzero, if_neg hzero]
      rcases hm.modify h.store hc hkeeps with ⟨message, hrefuses, hmodify⟩ | ⟨store, hmodify, hR⟩
      · exact .inl ⟨message, hrefuses, by rw [hmodify]⟩
      · rw [hmodify]
        exact .inr ⟨_, _, rfl, rfl, h.withStore hR⟩

theorem recordFailure (h : Mirrored R r q) (hm : Mirrors R) (hc : q.store.Consistent)
    (id : SubscriptionId) : FailureAlike R r q id := by
  have hkeeps : KeepsId q.store id Subscription.countFailure :=
    hc.keepsId Subscription.countFailure_id id
  have hconsistent : (q.changed id Subscription.countFailure).store.Consistent :=
    hc.apply (.modify id Subscription.countFailure) trivial
  rcases hm.modify h.store hc hkeeps with ⟨message, hrefuses, hmodify⟩ | ⟨store, hmodify, hR⟩
  · exact .inl ⟨message, hrefuses, recordFailure_of_refused hmodify⟩
  · have hchanged : Mirrored R { r with store } (q.changed id Subscription.countFailure) :=
      h.withStore hR
    refine .inr ?_
    cases hget : q.store.subscriptions.get? id with
    | none =>
      rw [MemoryStore.modify_unused hget] at hmodify
      rw [changed_unused hget] at hchanged
      rw [recordFailure_of_none hmodify, recordFailure_unknown hget]
      exact .inr ⟨rfl, hchanged⟩
    | some s =>
      rw [hc.modify_kept hget (hkeeps s hget)] at hmodify
      rw [recordFailure_known hget]
      by_cases hlimit : s.countFailure.failedPushes ≤ q.failureLimit
      · rw [recordFailure_of_le hmodify (h.failureLimit ▸ hlimit), if_pos hlimit]
        exact .inr ⟨rfl, hchanged⟩
      · have hover : ¬ s.countFailure.failedPushes ≤ r.failureLimit := h.failureLimit ▸ hlimit
        rw [if_neg hlimit]
        rcases hchanged.remove hm hconsistent id with
          ⟨message, hstore, hremove⟩ | ⟨r', hremove, hr'⟩
        · exact .inl ⟨{ r with store }, message, hstore,
            recordFailure_of_kept hmodify hover hremove, hchanged⟩
        · rw [recordFailure_of_removed hmodify hover hremove]
          exact .inr ⟨rfl, hr'⟩

/-! ## Any number of answers -/

theorem settled (h : Mirrored R r q) (hm : Mirrors R) (hw : Willing R) (hc : q.store.Consistent)
    (id : SubscriptionId) (o : Outcome) : Mirrored R (r.settled id o) (q.settled id o) := by
  cases o with
  | delivered =>
    rcases h.recordSuccess hm hc id with ⟨message, ⟨s, -, hupdate⟩, -⟩ | ⟨r', q', hr, hq, h'⟩
    · exact absurd hupdate (hw.update h.store _ message)
    · unfold Registry.settled
      dsimp only
      rw [hr, hq]
      exact h'
  | reset =>
    rcases h.remove hm hc id with ⟨message, hremove, -⟩ | ⟨r', hr, h'⟩
    · exact absurd hremove (hw.remove h.store id message)
    · rw [settled_reset, Registry.settled, hr]
      exact h'
  | failed status =>
    rcases h.recordFailure hm hc id with
      ⟨message, ⟨s, -, hupdate⟩, -⟩ | ⟨counted, message, hremove, -, h'⟩ | ⟨-, h'⟩
    · exact absurd hupdate (hw.update h.store _ message)
    · exact absurd hremove (hw.remove h'.store id message)
    · exact h'

/-- Over a store that refuses nothing the registries stay alike, whatever becomes of how many pushes. -/
theorem settledAll (h : Mirrored R r q) (hm : Mirrors R) (hw : Willing R) (hc : q.store.Consistent)
    (outcomes : List (SubscriptionId × Outcome)) :
    Mirrored R (r.settledAll outcomes) (q.settledAll outcomes) := by
  induction outcomes generalizing r q with
  | nil => exact h
  | cons o rest ih =>
    exact ih (h.settled hm hw hc o.1 o.2) (Inherits.settled hc o.1 o.2).consistent

end Mirrored
end Registry

/-- **Either way.** In every store in memory that a run leads to, changing a subscription in place is
the same as putting back a changed copy, in what is answered and in all that is stored, exactly if the
change keeps the identifier; every query is then answered as the changed subscriptions have it. A store
that changes subscriptions by putting back copies, and refuses to put one back, answers that and stays
as it is. If it mirrors the store in memory and does not refuse, it answers a change as the store in
memory does, and afterwards mirrors it again. So the registry records the answers to pushes alike over
both, one after the other, but for what is refused. -/
theorem change_either_way (ops : List StoreOp) (hfresh : StoreOp.Fresh MemoryStore.empty ops) :
    let m := StoreOp.run MemoryStore.empty ops
    (∀ id f,
      (SubscriptionStore.modify m id f = SubscriptionStore.modifyCommon m id f ↔ KeepsId m id f) ∧
      SameAnswers ((StoreOp.modify id f).apply m).2 ((StoreOp.modify id f).apply m.plain).2) ∧
    (∀ (σ : Type) [SubscriptionStore σ] (a : σ) id f message,
      SubscriptionStore.modify a id f = SubscriptionStore.modifyCommon a id f →
      RefusesChange a id f message → (StoreOp.modify id f).Refused a message) ∧
    ∀ (σ : Type) [SubscriptionStore σ] (R : σ → MemoryStore → Prop), Mirrors R →
      (∀ a id f, R a m → KeepsId m id f → (∀ message, ¬ RefusesChange a id f message) →
        (StoreOp.modify id f).SameEffect R a m ∧
        SameAnswers ((StoreOp.modify id f).apply a).2 ((StoreOp.modify id f).apply m).2) ∧
      ∀ (r : Registry σ) (q : Registry MemoryStore), q.store = m → Registry.Mirrored R r q →
        (∀ id, Registry.SuccessAlike R r q id ∧ Registry.FailureAlike R r q id) ∧
        (Willing R → ∀ outcomes,
          Registry.Mirrored R (r.settledAll outcomes) (q.settledAll outcomes)) := by
  intro m
  have h : m.Consistent := MemoryStore.Consistent.empty.run ops hfresh
  refine ⟨fun id f => ⟨h.modify_eq_common_iff id f, ?_⟩,
    fun _ _ a id f message => StoreOp.modify_refused, fun σ _ R hm => ⟨?_, ?_⟩⟩
  · have hplain := congrArg Prod.snd (h.apply_plain (.modify id f))
    rw [hplain]
    exact (h.apply (.modify id f) trivial).sameAnswers
  · intro a id f hR hkeeps haccepts
    have hsame : (StoreOp.modify id f).SameEffect R a m :=
      hm.sameEffect_modify hR h hkeeps haccepts
    exact ⟨hsame, hm.answers hsame.store⟩
  · intro r q hq hmirrored
    have hc : q.store.Consistent := hq ▸ h
    exact ⟨fun id => ⟨hmirrored.recordSuccess hm hc id, hmirrored.recordFailure hm hc id⟩,
      fun hw => hmirrored.settledAll hm hw hc⟩

/-- Two subscriptions with their stops and a line in common. -/
def twoTravellers : List StoreOp :=
  let there := ((Subscription.pushing "there" "http://a").withStops "x" "y").withLine "1"
  let back := ((Subscription.pushing "back" "http://b").withStops "y" "x").withLine "1"
  [.add "a" there, .add "b" back]

/-- The way back, and a codespace in the stead of all lines. -/
def Subscription.turned (s : Subscription) : Subscription :=
  { s with fromStops := s.toStops, toStops := s.fromStops, lineRefs := ∅ }.withCodespace "NSB"

/-- What became of four pushes: the second traveller twice could not be reached, the first once. -/
def twoTravellersOutcomes : List (SubscriptionId × Outcome) :=
  [("b", .failed none), ("a", .failed (some 500)), ("a", .delivered), ("b", .failed none)]

/-- The first traveller turns round. A store that refuses updates leaves everything as it was; one that
refuses only removals makes the change in all indexes. Over a store that refuses nothing, a registry that
tolerates no failed push removes the first traveller for one, and a registry that tolerates one keeps
the first traveller and removes the second. -/
theorem change_either_way_turned :
    let m := StoreOp.run MemoryStore.empty twoTravellers
    let changed := ((StoreOp.modify "a" Subscription.turned).apply (RefusingStore.mk m [.remove])).2
    let settled := (Registry.mk (RefusingStore.mk m []) ∅ .tally 1).settledAll twoTravellersOutcomes
    StoreOp.Fresh MemoryStore.empty twoTravellers ∧
    SubscriptionStore.modify m "a" Subscription.turned =
      SubscriptionStore.modifyCommon m "a" Subscription.turned ∧
    (StoreOp.modify "a" Subscription.turned).Refused (RefusingStore.mk m [.update]) "update refused" ∧
    (SubscriptionStore.byStop changed "x").map Subscription.id = ["a", "b"] ∧
    (SubscriptionStore.byLine changed "1").map Subscription.id = ["b"] ∧
    (SubscriptionStore.byCodespace changed "NSB").map Subscription.id = ["a"] ∧
    ((Registry.mk (RefusingStore.mk m []) ∅ .tally 0).recordFailure "a").1 = .ok (.removed 1) ∧
    (SubscriptionStore.list settled.store).map (fun s => (s.id, s.failedPushes)) = [("a", 0)] := by
  intro m changed settled
  have hfresh : StoreOp.Fresh MemoryStore.empty twoTravellers := by decide
  have hc : m.Consistent := MemoryStore.Consistent.empty.run twoTravellers hfresh
  have hkeeps : KeepsId m "a" Subscription.turned := hc.keepsId (fun _ => rfl) "a"
  obtain ⟨hways, hrefused, hmirrors⟩ := change_either_way twoTravellers hfresh
  -- the store that refuses removals, after the change
  obtain ⟨-, hchanged⟩ := (hmirrors RefusingStore _ (RefusingStore.mirrors [.remove])).1 ⟨m, [.remove]⟩
    "a" Subscription.turned rfl hkeeps fun message hrefuses =>
      RefusingStore.update_ne_refused (by decide) _ message hrefuses.choose_spec.2
  have hplain := (hways "a" Subscription.turned).2
  -- the store that refuses nothing, under registries that tolerate no failed push or one
  have halike := fun limit => (hmirrors RefusingStore _ (RefusingStore.mirrors [])).2
    ⟨⟨m, []⟩, ∅, .tally, limit⟩ ⟨m, ∅, .tally, limit⟩ rfl ⟨rfl, rfl, rfl, rfl⟩
  have hsettled := (halike 1).2 RefusingStore.willing twoTravellersOutcomes
  refine ⟨hfresh, (hways "a" Subscription.turned).1.mpr hkeeps,
    hrefused RefusingStore ⟨m, [.update]⟩ "a" Subscription.turned "update refused" rfl
      (RefusingStore.refusesChange (by decide) (by decide) _), ?_, ?_, ?_, ?_, ?_⟩
  · rw [hchanged.byStop, hplain.byStop]
    decide
  · rw [hchanged.byLine, hplain.byLine]
    decide
  · rw [hchanged.byCodespace, hplain.byCodespace]
    decide
  · rcases ((halike 0).1 "a").2 with
      ⟨message, hrefuses, -⟩ | ⟨counted, message, hremove, -, hcounted⟩ | hsame
    · exact absurd hrefuses.choose_spec.2 (RefusingStore.update_ne_refused (by decide) _ message)
    · rw [hcounted.store] at hremove
      exact absurd hremove (RefusingStore.remove_ne_refused (by decide) _ message)
    · rw [hsame.1]
      decide
  · rw [hsettled.store]
    decide

end TransitPush
