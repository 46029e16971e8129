import TransitPush.Proofs.Delivery.Completions
/-!
# The counters of removals

Answers to pushes are handled at the same time. To handle one that leads to a removal takes two
steps, and others come between them: at first it is decided that the subscription is to go, then it
is removed and the removal is counted. By then it may be gone already, and the removal is counted all
the same.

* `Handlers`: a courier and the removals that are decided; `HandlerOp`: what happens to them.
* `Handlers.deliver_push`: to deliver a push is to take both steps at once.
* `Handlers.removals_step`: what a step counts, by whom it takes out of the store.
* `Handlers.removals_counted`: what a run counts; `Handlers.removals_twice`: one subscription counted
  twice.
-/
namespace TransitPush

/-! ## Counting removals -/

/-- The removals counted so far, for whatever reason. -/
def Counters.removals (cs : Counters) : Nat :=
  cs.value (.removed .reset) + cs.value (.removed .failedPushes)

namespace Counter

def isRemoved : Counter → Bool
  | removed _ => true
  | received _ | rejected _ | pushed _ | noticed _ => false

theorem name_eq_removed {c : Counter} {why : Removal} :
    (removed why).name = c.name ↔ c = removed why := by
  cases why <;> rcases c with ⟨⟨⟩⟩ | ⟨⟨⟩⟩ | ⟨⟨⟩ | ⟨⟩ | ⟨_⟩⟩ | ⟨⟨⟩⟩ | ⟨⟨⟩⟩ <;>
    simp only [name, EventKind.label, Outcome.label, NoticeKind.label, Removal.label, reduceCtorEq,
      iff_false] <;> decide

end Counter

theorem Counters.removals_bump (cs : Counters) (c : Counter) :
    (cs.bump c).removals = cs.removals + c.isRemoved.toNat := by
  unfold removals
  simp only [value_bump, Counter.name_eq_removed]
  cases c with
  | removed why =>
    cases why <;> simp only [Counter.removed.injEq, reduceCtorEq, if_true, if_false,
      Counter.isRemoved, Bool.toNat_true] <;> omega
  | received _ | rejected _ | pushed _ | noticed _ => rfl

/-! ## Answers in two steps -/

namespace Registry

variable {r r' : Registry MemoryStore} {id k : SubscriptionId}

/-- What is decided of a subscription when the answer to a push comes, and why it is to be removed if
it is. Only a failed push that counts beyond the limit and a reset lead to that. -/
def decided (r : Registry MemoryStore) (id : SubscriptionId) :
    Outcome → Registry MemoryStore × Option Removal
  | .delivered => (r.settled id .delivered, none)
  | .reset => (r, some .reset)
  | .failed _ =>
    (r.changed id Subscription.countFailure,
      match r.store.subscriptions.get? id with
      | some s => if s.countFailure.failedPushes ≤ r.failureLimit then none else some .failedPushes
      | none => none)

/-- What is decided, carried out at once. -/
theorem settled_eq_decided (o : Outcome) : r.settled id o =
    match (r.decided id o).2 with
    | some _ => (r.decided id o).1.without id
    | none => (r.decided id o).1 := by
  cases o with
  | delivered | reset => rfl
  | failed status =>
    unfold decided
    cases hget : r.store.subscriptions.get? id with
    | none =>
      rw [changed_unused hget]
      exact settled_failed_unknown hget
    | some s =>
      rw [settled_failed hget]
      dsimp only
      split <;> rfl

theorem settled_snd_eq_decided (o : Outcome) :
    ((r.account id).settled r.failureLimit o).2 = (r.decided id o).2 := by
  cases o with
  | delivered | reset => rfl
  | failed status =>
    unfold Account.settled account decided
    dsimp only
    cases r.store.subscriptions.get? id with
    | none => rfl
    | some s =>
      dsimp only
      split <;> rfl

/-- A subscription that is gone is to be removed on a reset only. -/
theorem decided_unknown (hget : r.store.subscriptions.get? id = none) {o : Outcome}
    (hreset : o ≠ .reset) : (r.decided id o).2 = none := by
  cases o with
  | delivered => rfl
  | reset => exact absurd rfl hreset
  | failed status =>
    unfold decided
    rw [hget]

/-- Nobody who is stored in one registry is missing in another. -/
def Keeps (r r' : Registry MemoryStore) : Prop :=
  ∀ k s, r.store.subscriptions.get? k = some s → ∃ s', r'.store.subscriptions.get? k = some s'

theorem keeps_refl : r.Keeps r :=
  fun _ s hk => ⟨s, hk⟩

theorem keeps_changed (f : Subscription → Subscription) : r.Keeps (r.changed id f) := by
  intro k s hk
  cases hget : r.store.subscriptions.get? id with
  | none =>
    rw [changed_unused hget]
    exact ⟨s, hk⟩
  | some before =>
    have hafter : (r.changed id f).store.subscriptions =
        r.store.subscriptions.insert before.id { f before with id := before.id } := by
      unfold changed
      rw [MemoryStore.modify_eq hget]
      rfl
    rw [hafter, Table.get?_insert]
    split
    · exact ⟨_, rfl⟩
    · exact ⟨s, hk⟩

theorem keeps_settled_delivered : r.Keeps (r.settled id .delivered) := by
  have hclear := @keeps_changed r id Subscription.clearFailures
  unfold settled recordSuccess
  cases SubscriptionStore.get? r.store id with
  | none => exact keeps_refl
  | some t =>
    dsimp only
    split
    · rename_i r' hsuccess
      split at hsuccess
      · cases hsuccess
        exact keeps_refl
      · cases hsuccess
        exact hclear
    · exact keeps_refl

/-- What is decided takes nobody out of the store. -/
theorem keeps_decided (o : Outcome) : r.Keeps (r.decided id o).1 := by
  cases o with
  | delivered => exact keeps_settled_delivered
  | reset => exact keeps_refl
  | failed status => exact keeps_changed _

def missing (r r' : Registry MemoryStore) : List SubscriptionId :=
  r.store.subscriptions.keys.filter fun k => (r'.store.subscriptions.get? k).isNone

theorem missing_of_keeps (h : r.Keeps r') : r.missing r' = [] := by
  refine List.filter_eq_nil_iff.mpr fun k hk hnone => ?_
  obtain ⟨s, hs⟩ := Table.mem_keys.mp hk
  obtain ⟨s', hs'⟩ := h k s hs
  rw [hs'] at hnone
  cases hnone

/-- A removal takes its subscription out of the store if it finds it there, and nobody else. -/
theorem length_missing_without (h : r.Keeps r') : (r.missing (r'.without id)).length +
    (r.store.subscriptions.get? id).isNone.toNat = 1 := by
  have hmissing : r.missing (r'.without id) =
      r.store.subscriptions.keys.filter fun k => k == id := by
    refine List.filter_congr fun k hk => ?_
    obtain ⟨s, hs⟩ := Table.mem_keys.mp hk
    obtain ⟨s', hs'⟩ := h k s hs
    have hafter : (r'.without id).store.subscriptions.get? k = if k = id then none else some s' := by
      rw [← hs']
      exact r'.store.get?_after_remove id k
    rw [hafter]
    by_cases hsame : k = id
    · rw [if_pos hsame, beq_iff_eq.mpr hsame]
      rfl
    · rw [if_neg hsame, beq_eq_false_iff_ne.mpr hsame]
      rfl
  have hcount : (r.store.subscriptions.keys.filter fun k => k == id).length =
      if id ∈ r.store.subscriptions.keys then 1 else 0 :=
    List.countP_eq_length_filter.symm.trans (Table.keys_nodup _).count
  rw [hmissing, hcount]
  cases hget : r.store.subscriptions.get? id with
  | none =>
    have habsent : id ∉ r.store.subscriptions.keys := fun hmem => by
      obtain ⟨s, hs⟩ := Table.mem_keys.mp hmem
      rw [hget] at hs
      cases hs
    rw [if_neg habsent]
    rfl
  | some s =>
    rw [if_pos (Table.mem_keys.mpr ⟨s, hget⟩)]
    rfl

end Registry

/-- A removal that is decided: of whom, and why. -/
structure Verdict where
  id : SubscriptionId
  why : Removal
deriving DecidableEq

/-- A courier, and the removals that were decided when answers came and are not carried out yet. -/
structure Handlers (τ : Type) where
  courier : Courier MemoryStore τ
  pending : List Verdict

/-- A push is answered, one of the pending removals is carried out, or anything else happens to the
courier. -/
inductive HandlerOp where
  | hear (now : Timestamp) (o : Outgoing)
  | carryOut (i : Nat)
  | other (op : CourierOp)

/-- The operation is a step of handling an answer, or all of it at once. -/
def HandlerOp.isAnswer : HandlerOp → Bool
  | hear _ _ | carryOut _ | other (.deliver _ (.push _)) => true
  | other _ => false

namespace Handlers

variable {τ : Type} [Transport τ]

def outcomeOf (h : Handlers τ) (now : Timestamp) (o : Outgoing) : Outcome :=
  .ofAnswer (h.courier.send (o.post now)).1

/-- A push is posted, and its answer is counted. What is decided of the subscription takes effect but
for its removal. -/
def hear (h : Handlers τ) (now : Timestamp) (o : Outgoing) : Handlers τ :=
  let (answer, c) := h.courier.send (o.post now)
  let c := c.count (.pushed (.ofAnswer answer))
  let (registry, removal) := c.registry.decided o.subscription.id (.ofAnswer answer)
  ⟨{ c with registry }, h.pending ++ (removal.map (Verdict.mk o.subscription.id)).toList⟩

/-- A subscription is removed, if it is there, and the removal is counted. -/
def carryOut (h : Handlers τ) (i : Nat) : Handlers τ :=
  match h.pending[i]? with
  | some v =>
    let c := { h.courier with registry := h.courier.registry.without v.id }
    ⟨c.count (.removed v.why), h.pending.eraseIdx i⟩
  | none => h

def step (h : Handlers τ) : HandlerOp → Handlers τ
  | .hear now o => h.hear now o
  | .carryOut i => h.carryOut i
  | .other op => { h with courier := h.courier.step op }

def run (h : Handlers τ) : List HandlerOp → Handlers τ
  | [] => h
  | op :: ops => (h.step op).run ops

/-- Whom the handling of an answer takes out of the store in an operation. -/
def taken (h : Handlers τ) (op : HandlerOp) : List SubscriptionId :=
  if op.isAnswer then h.courier.registry.missing (h.step op).courier.registry else []

def allTaken (h : Handlers τ) : List HandlerOp → List SubscriptionId
  | [] => []
  | op :: ops => h.taken op ++ (h.step op).allTaken ops

def isGone (h : Handlers τ) (id : SubscriptionId) : Bool :=
  (h.courier.registry.store.subscriptions.get? id).isNone

/-- The operation carries out a removal that finds nothing to remove. -/
def isLate (h : Handlers τ) : HandlerOp → Bool
  | .carryOut i => h.pending[i]?.any fun v => h.isGone v.id
  | .other (.deliver now (.push o)) =>
    h.outcomeOf now o = .reset && h.isGone o.subscription.id
  | .hear _ _ | .other _ => false

/-- How many removals of a run find nothing to remove. -/
def late (h : Handlers τ) : List HandlerOp → Nat
  | [] => 0
  | op :: ops => (h.isLate op).toNat + (h.step op).late ops

/-! ## Both steps at once -/

variable {h : Handlers τ}

omit [Transport τ] in
theorem settle_eq_decided (c : Courier MemoryStore τ) (id : SubscriptionId) (o : Outcome) :
    c.settle id o =
      match (c.registry.decided id o).2 with
      | some why =>
        { c with registry := (c.registry.decided id o).1.without id }.count (.removed why)
      | none => { c with registry := (c.registry.decided id o).1 } := by
  have hregistry := (c.registry_settle id o).trans (Registry.settled_eq_decided o)
  have hcounters := c.counters_settle id o
  obtain ⟨hwaiting, htransport⟩ := c.waiting_settle id o
  rw [Registry.settled_snd_eq_decided] at hcounters
  generalize c.settle id o = after at *
  obtain ⟨registry, transport, counters, waiting⟩ := after
  dsimp only at *
  subst hregistry hcounters hwaiting htransport
  cases (c.registry.decided id o).2 <;> rfl

theorem pending_hear (h : Handlers τ) (now : Timestamp) (o : Outgoing) :
    (h.hear now o).pending = h.pending ++ ((h.courier.registry.decided o.subscription.id
      (h.outcomeOf now o)).2.map (Verdict.mk o.subscription.id)).toList := by
  rw [← h.courier.registry_send (o.post now)]
  rfl

/-- To deliver a push is to hear the answer, and to carry out at once what is decided then. -/
theorem deliver_push (h : Handlers τ) (now : Timestamp) (o : Outgoing) :
    h.step (.other (.deliver now (.push o))) = (h.hear now o).carryOut h.pending.length := by
  let sent := (h.courier.send (o.post now)).2.count (.pushed (h.outcomeOf now o))
  let decided := sent.registry.decided o.subscription.id (h.outcomeOf now o)
  have hdelivered : h.step (.other (.deliver now (.push o))) =
      ⟨sent.settle o.subscription.id (h.outcomeOf now o), h.pending⟩ := rfl
  have hheard : h.hear now o = ⟨{ sent with registry := decided.1 },
      h.pending ++ (decided.2.map (Verdict.mk o.subscription.id)).toList⟩ := rfl
  rw [hdelivered, hheard, settle_eq_decided]
  show (⟨match decided.2 with
    | some why => _
    | none => _, _⟩ : Handlers τ) = _
  cases decided.2 with
  | none =>
    rw [Option.map_none, Option.toList_none, List.append_nil, carryOut,
      List.getElem?_eq_none (Nat.le_refl _)]
  | some why =>
    rw [Option.map_some, Option.toList_some, carryOut, List.getElem?_concat_length]
    dsimp only
    rw [List.eraseIdx_append_of_length_le (Nat.le_refl _), Nat.sub_self, List.eraseIdx_cons_zero,
      List.append_nil]

/-! ## Steps -/

omit [Transport τ] in
theorem removals_carryOut {r : Registry MemoryStore} (hkeeps : r.Keeps h.courier.registry)
    (i : Nat) :
    (h.carryOut i).courier.counters.removals = h.courier.counters.removals +
      (r.missing (h.carryOut i).courier.registry).length +
      (h.pending[i]?.any fun v => (r.store.subscriptions.get? v.id).isNone).toNat := by
  unfold carryOut
  cases hv : h.pending[i]? with
  | none =>
    rw [Registry.missing_of_keeps hkeeps]
    rfl
  | some v =>
    have hmissing := @Registry.length_missing_without _ _ v.id hkeeps
    have hremovals := Counters.removals_bump h.courier.counters (.removed v.why)
    simp only [Option.any_some]
    show (h.courier.counters.bump (.removed v.why)).removals = _
    rw [hremovals, Nat.add_assoc]
    exact congrArg _ hmissing.symm

theorem removals_hear (h : Handlers τ) (now : Timestamp) (o : Outgoing) :
    (h.hear now o).courier.counters.removals = h.courier.counters.removals := by
  have hcounters : (h.hear now o).courier.counters =
      (h.courier.send (o.post now)).2.counters.bump (.pushed (h.outcomeOf now o)) := rfl
  rw [hcounters, Counters.removals_bump, Courier.send_else]
  rfl

theorem keeps_hear (h : Handlers τ) (now : Timestamp) (o : Outgoing) :
    h.courier.registry.Keeps (h.hear now o).courier.registry := by
  have hregistry : (h.hear now o).courier.registry =
      ((h.courier.send (o.post now)).2.registry.decided o.subscription.id
        (h.outcomeOf now o)).1 := rfl
  rw [hregistry, h.courier.registry_send]
  exact Registry.keeps_decided _

/-- A removal that is decided when an answer comes finds its subscription then, except that 205 is
answered to a push of one that is gone. -/
theorem late_hear (h : Handlers τ) (now : Timestamp) (o : Outgoing) :
    ((h.hear now o).pending[h.pending.length]?.any fun v => h.isGone v.id) =
      h.isLate (.other (.deliver now (.push o))) := by
  have hlate : ((h.hear now o).pending[h.pending.length]?.any fun v => h.isGone v.id) =
      (h.courier.registry.decided o.subscription.id (h.outcomeOf now o)).2.any
        fun _ => h.isGone o.subscription.id := by
    rw [pending_hear]
    cases (h.courier.registry.decided o.subscription.id (h.outcomeOf now o)).2 with
    | none =>
      rw [Option.map_none, Option.toList_none, List.append_nil,
        List.getElem?_eq_none (Nat.le_refl _)]
      rfl
    | some why =>
      rw [Option.map_some, Option.toList_some, List.getElem?_concat_length]
      rfl
  rw [hlate, isLate]
  cases h.outcomeOf now o with
  | delivered => rfl
  | reset => rfl
  | failed status =>
    unfold Registry.decided isGone
    cases h.courier.registry.store.subscriptions.get? o.subscription.id with
    | none => rfl
    | some s =>
      dsimp only
      split <;> rfl

omit [Transport τ] in
theorem counters_terminateAll (c : Courier MemoryStore τ) (now : Timestamp)
    (ss : List Subscription) :
    (ss.foldl (fun c s => c.terminate now s) c).counters = c.counters := by
  induction ss generalizing c with
  | nil => rfl
  | cons s ss ih => exact ih (c.terminate now s)

omit [Transport τ] in
theorem counters_sweep (c : Courier MemoryStore τ) (planner : Planner) (now : Timestamp) :
    (c.sweep planner now).2.2.counters = c.counters :=
  counters_terminateAll _ now _

theorem removals_notice (c : Courier MemoryStore τ) (now : Timestamp) (kind : NoticeKind)
    (address : String) (envelope : Envelope) :
    (c.deliver now (.notice kind address envelope)).counters.removals = c.counters.removals := by
  rw [Courier.deliver]
  generalize (Envelope.format.toPayload envelope).map _ = post
  show ((c.send post).2.counters.bump (.noticed kind)).removals = _
  rw [Counters.removals_bump, Courier.send_else]
  rfl

/-- **One step's removals.** A step counts whom it takes out of the store, and a removal that finds
nothing to remove. -/
theorem removals_step (h : Handlers τ) (op : HandlerOp) :
    (h.step op).courier.counters.removals =
      h.courier.counters.removals + (h.taken op).length + (h.isLate op).toNat := by
  unfold taken
  cases op with
  | hear now o =>
    have htaken := Registry.missing_of_keeps (keeps_hear h now o)
    simp only [HandlerOp.isAnswer, if_true, step, isLate, htaken]
    exact removals_hear h now o
  | carryOut i => exact removals_carryOut Registry.keeps_refl i
  | other op =>
    cases op with
    | deliver now p =>
      cases p with
      | push o =>
        -- Hearing removes nobody, so who is missing afterwards is told against the registry before it.
        have hanswer : (HandlerOp.other (.deliver now (.push o))).isAnswer = true := rfl
        rw [if_pos hanswer, deliver_push, removals_carryOut (keeps_hear h now o), removals_hear,
          ← late_hear]
        rfl
      | notice kind address envelope => exact removals_notice _ now kind address envelope
    | write op => rfl
    | remove id => rfl
    | sweep planner now => exact congrArg Counters.removals (counters_sweep _ planner now)

/-! ## Runs -/

/-- **The counters of removals.** In every run of pushes whose answers are handled at the same time,
with requests and sweeps in between, the counters of removals go up by one for each subscription that
the handling of answers takes out of the store, and also for each removal that finds its subscription
gone. Any answer other than 205 to a push of a subscription that is gone leads to no removal. -/
theorem removals_counted (h : Handlers τ) (ops : List HandlerOp) :
    (h.run ops).courier.counters.removals =
      h.courier.counters.removals + (h.allTaken ops).length + h.late ops ∧
    ∀ now o, (h.run ops).isGone o.subscription.id → (h.run ops).outcomeOf now o ≠ .reset →
      ((h.run ops).hear now o).pending = (h.run ops).pending := by
  constructor
  · induction ops generalizing h with
    | nil => rfl
    | cons op ops ih =>
      have hstep := removals_step h op
      have hrest := ih (h.step op)
      rw [allTaken, List.length_append, late, run]
      omega
  · intro now o hgone hreset
    have hnone := Registry.decided_unknown (Option.isNone_iff_eq_none.mp hgone) hreset
    rw [pending_hear, hnone]
    exact List.append_nil _

/-- A courier whose pushes are all answered alike, with one subscription, for which no failed push is
tolerated. -/
def answered (a : Answer) : Handlers ToldTransport where
  courier := ⟨⟨StoreOp.run .empty [.add "a" (Courier.numberedTo "a" "1").subscription],
    (∅ : TimestampMap).insert "a" .epoch, ⟨toString, 1⟩, 0⟩, ⟨a, []⟩, ∅, []⟩
  pending := []

/-- Two pushes to one subscription that are on their way together. The answer to the second is
handled after the answer to the first. -/
def inTurn : List HandlerOp :=
  ["1", "2"].map fun number => .other (.deliver .epoch (.push (Courier.numberedTo "a" number)))

/-- The same, but both answers come before either removal is carried out. -/
def overlapping : List HandlerOp :=
  ["1", "2"].map (fun number => .hear .epoch (Courier.numberedTo "a" number)) ++
    [.carryOut 0, .carryOut 0]

/-- The second removal finds nothing to remove. A failed push that is answered after that is of no
consequence. -/
theorem removals_counted_overlapping :
    let after := (answered (.ok 500)).run overlapping
    let third := Courier.numberedTo "a" "3"
    after.isGone "a" ∧ after.outcomeOf .epoch third ≠ .reset ∧
    after.courier.counters.removals = 0 + 1 + 1 ∧ (after.hear .epoch third).pending = [] := by
  intro after third
  have hgone : after.isGone "a" := by decide
  have hreset : after.outcomeOf .epoch third ≠ .reset := by decide
  obtain ⟨hcounted, hlate⟩ := removals_counted (answered (.ok 500)) overlapping
  have htaken : (answered (.ok 500)).allTaken overlapping = ["a"] := by decide
  have honce : (answered (.ok 500)).late overlapping = 1 := by decide
  rw [htaken, honce] at hcounted
  exact ⟨hgone, hreset, hcounted, (hlate .epoch third hgone hreset).trans (by decide)⟩

/-- Two removals are counted and one subscription is gone: after two resets of which the second finds
nothing, and after two failed pushes that are both beyond the limit. -/
theorem removals_twice :
    ((answered (.ok 205)).allTaken inTurn = ["a"] ∧
      ((answered (.ok 205)).run inTurn).courier.counters.removals = 2) ∧
    ((answered (.ok 500)).allTaken overlapping = ["a"] ∧
      ((answered (.ok 500)).run overlapping).courier.counters.removals = 2) := by
  decide

end Handlers
end TransitPush
