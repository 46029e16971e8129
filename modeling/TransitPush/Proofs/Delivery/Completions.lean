import Mathlib.Data.List.Perm.Subperm
import TransitPush.Proofs.Delivery.CourierRun
/-!
# The order in which pushes are done

Pushes that wait are posted at once and answered in any order. What the answer to one does depends on
its own subscription alone, so only the order among the pushes of one subscription matters.

* `Registry.account_settled`: an answer changes the account of its subscription and no other. The
  accounts are all there is to a registry (`Registry.ext_account`).
* `Books.settled_comm`: answers to pushes of different subscriptions can be exchanged.
* `foldl_eq_of_filter_eq`: from exchanges of neighbours to orders that agree for each key.
* `Courier.orders_agree`: two orders end alike, and each posts and counts every push once;
  `Courier.posts_agree`: what they post is the same but for the times in envelopes.
-/
namespace TransitPush

/-! ## Accounts -/

/-- What is kept under an identifier: the subscription, and its entry in the schedule. -/
structure Account where
  subscription : Option Subscription
  entry : Option Timestamp

def Account.closed : Account := ⟨none, none⟩

/-- What the outcome of a push makes of an account, and why it is closed if it is. -/
def Account.settled (limit : UInt32) (a : Account) : Outcome → Account × Option Removal
  | .delivered => (⟨a.subscription.map Subscription.clearFailures, a.entry⟩, none)
  | .reset => (closed, some .reset)
  | .failed _ =>
    match a.subscription with
    | none => (a, none)
    | some s =>
      if s.countFailure.failedPushes ≤ limit then (⟨some s.countFailure, a.entry⟩, none)
      else (closed, some .failedPushes)

namespace Registry

variable {r r' : Registry MemoryStore} {id i k : SubscriptionId}

def account (r : Registry MemoryStore) (id : SubscriptionId) : Account :=
  ⟨r.store.subscriptions.get? id, r.schedule.get? id⟩

/-- Registries with the same accounts are the same, their indexes included. -/
theorem ext_account (h : r.store.Consistent) (h' : r'.store.Consistent)
    (haccount : ∀ id, r.account id = r'.account id) (hids : r.ids = r'.ids)
    (hlimit : r.failureLimit = r'.failureLimit) : r = r' := by
  obtain ⟨store, schedule, ids, limit⟩ := r
  obtain ⟨store', schedule', ids', limit'⟩ := r'
  have hsubs : store.subscriptions = store'.subscriptions :=
    Table.ext_get? fun id => congrArg Account.subscription (haccount id)
  obtain rfl : store = store' := h.unique h' hsubs
  obtain rfl : schedule = schedule' :=
    Table.ext_get? fun id => congrArg Account.entry (haccount id)
  obtain rfl : ids = ids' := hids
  obtain rfl : limit = limit' := hlimit
  rfl

theorem account_without (h : r.store.Consistent) :
    (r.without i).account k = if k = i then .closed else r.account k := by
  have hentry := Table.get?_erase r.schedule i k
  split
  · rename_i hk
    subst hk
    rw [if_pos rfl] at hentry
    exact congrArg₂ Account.mk (r.store.get?_remove k) hentry
  · rename_i hk
    rw [if_neg hk] at hentry
    exact congrArg₂ Account.mk (Spares.without h (Ne.symm hk)).get? hentry

theorem account_changed (h : r.store.Consistent) {f : Subscription → Subscription}
    (hf : ∀ s, (f s).id = s.id) :
    (r.changed i f).account k =
      if k = i then ⟨(r.account i).subscription.map f, (r.account i).entry⟩ else r.account k := by
  split
  · rename_i hk
    subst hk
    refine congrArg (Account.mk · _) ?_
    cases hget : r.store.subscriptions.get? k with
    | none =>
      rw [changed_unused hget]
      exact hget.trans (congrArg (Option.map f) hget).symm
    | some s =>
      have hsame : { f s with id := s.id } = f s := by rw [← hf s]
      rw [account, hget, Option.map_some, ← hsame]
      exact h.get?_modify hget
  · rename_i hk
    exact congrArg (Account.mk · _) (Spares.changed h (Ne.symm hk) f).get?

/-- **One answer, one account.** -/
theorem account_settled (h : r.store.Consistent) (o : Outcome) :
    (r.settled i o).account k =
      if k = i then ((r.account i).settled r.failureLimit o).1 else r.account k := by
  cases o with
  | delivered =>
    rw [settled_delivered h]
    exact account_changed h fun _ => rfl
  | reset => exact account_without h
  | failed status =>
    cases hget : r.store.subscriptions.get? i with
    | none =>
      have hsame : (r.account i).settled r.failureLimit (.failed status) = (r.account i, none) := by
        simp only [Account.settled, account, hget]
      rw [settled_failed_unknown hget, hsame]
      split
      · rename_i hk
        rw [hk]
      · rfl
    | some s =>
      have hcounted := @account_changed r i k h _ Subscription.countFailure_id
      rw [settled_failed hget]
      simp only [Account.settled, account, hget, Option.map_some] at hcounted ⊢
      split
      · exact hcounted
      · refine (account_without (h.apply (.modify i Subscription.countFailure) trivial)).trans ?_
        split
        · rfl
        · rename_i hk
          rw [if_neg hk] at hcounted
          exact hcounted

theorem settled_consistent (h : r.store.Consistent) (o : Outcome) :
    (r.settled i o).store.Consistent := by
  cases o with
  | delivered =>
    rw [settled_delivered h]
    exact h.apply (.modify i Subscription.clearFailures) trivial
  | reset => exact h.remove i
  | failed status =>
    cases hget : r.store.subscriptions.get? i with
    | none =>
      rw [settled_failed_unknown hget]
      exact h
    | some s =>
      have hcounted := h.apply (.modify i Subscription.countFailure) trivial
      rw [settled_failed hget]
      split
      · exact hcounted
      · exact hcounted.remove i

theorem settled_limits (h : r.store.Consistent) (o : Outcome) :
    (r.settled i o).ids = r.ids ∧ (r.settled i o).failureLimit = r.failureLimit := by
  cases o with
  | delivered =>
    rw [settled_delivered h]
    exact ⟨rfl, rfl⟩
  | reset => exact ⟨rfl, rfl⟩
  | failed status =>
    cases hget : r.store.subscriptions.get? i with
    | none =>
      rw [settled_failed_unknown hget]
      exact ⟨rfl, rfl⟩
    | some s =>
      rw [settled_failed hget]
      split <;> exact ⟨rfl, rfl⟩

/-- Answers to pushes of different subscriptions can be exchanged. -/
theorem settled_comm (h : r.store.Consistent) (hne : i ≠ k) (o o' : Outcome) :
    (r.settled i o).settled k o' = (r.settled k o').settled i o := by
  obtain ⟨hids, hlimit⟩ := settled_limits (i := i) h o
  obtain ⟨hids', hlimit'⟩ := settled_limits (i := k) h o'
  have hi := settled_consistent (i := i) h o
  have hk := settled_consistent (i := k) h o'
  refine ext_account (settled_consistent hi o') (settled_consistent hk o) (fun id => ?_) ?_ ?_
  · simp only [account_settled hi, account_settled hk, account_settled h, hlimit, hlimit']
    by_cases hik : id = i
    · subst hik
      rw [if_neg hne, if_pos rfl, if_pos rfl, if_neg hne]
    · simp only [if_neg hik, if_neg hne.symm]
  · rw [(settled_limits hi o').1, (settled_limits hk o).1, hids, hids']
  · rw [(settled_limits hi o').2, (settled_limits hk o).2, hlimit, hlimit']

end Registry

/-! ## Books -/

theorem Counters.bump_comm (cs : Counters) (c d : Counter) :
    (cs.bump c).bump d = (cs.bump d).bump c := by
  refine Table.ext_get? fun name => ?_
  unfold Counters.bump Counters.value
  simp only [Table.get?_insert]
  grind

instance : RightCommutative Counters.bump := ⟨Counters.bump_comm⟩

/-- The registry and the counters of a courier. -/
structure Books where
  registry : Registry MemoryStore
  counters : Counters

namespace Books

/-- What the outcome of a push counts for: the push, and a removal if it leads to one. -/
def counted (b : Books) (id : SubscriptionId) (o : Outcome) : List Counter :=
  .pushed o :: (((b.registry.account id).settled b.registry.failureLimit o).2.map .removed).toList

/-- The books after the outcome of a push. -/
def settled (b : Books) (id : SubscriptionId) (o : Outcome) : Books where
  registry := b.registry.settled id o
  counters := (b.counted id o).foldl Counters.bump b.counters

variable {b : Books} {i k : SubscriptionId}

/-- What an outcome counts for is the same before and after another subscription's. -/
theorem counted_settled (h : b.registry.store.Consistent) (hne : i ≠ k) (o o' : Outcome) :
    (b.settled i o).counted k o' = b.counted k o' := by
  unfold counted settled
  rw [Registry.account_settled h, if_neg hne.symm, (Registry.settled_limits h o).2]

theorem settled_comm (h : b.registry.store.Consistent) (hne : i ≠ k) (o o' : Outcome) :
    (b.settled i o).settled k o' = (b.settled k o').settled i o := by
  rw [settled, settled.eq_1 (b.settled k o'), counted_settled h hne, counted_settled h hne.symm]
  refine congrArg₂ Books.mk (Registry.settled_comm h hne o o') ?_
  rw [settled, settled, ← List.foldl_append, ← List.foldl_append]
  exact List.perm_append_comm.foldl_eq _

end Books

/-! ## Orders -/

section
variable {α σ : Type} {key : α → String} {f : σ → α → σ} {p : σ → Prop}

/-- What comes before an item with a key of its own can be put behind it. -/
theorem foldl_move_front (hstep : ∀ s a, p s → p (f s a))
    (hcomm : ∀ s a b, p s → key a ≠ key b → f (f s a) b = f (f s b) a) {before : List α} {a : α}
    (hbefore : ∀ b ∈ before, key b ≠ key a) {s : σ} (hs : p s) :
    f (before.foldl f s) a = before.foldl f (f s a) := by
  induction before generalizing s with
  | nil => rfl
  | cons b before ih =>
    obtain ⟨hb, hrest⟩ := List.forall_mem_cons.mp hbefore
    rw [List.foldl_cons, ih hrest (hstep s b hs), hcomm s b a hs hb, List.foldl_cons]

/-- Two orders that agree for each key come about by exchanging neighbours with different keys, so
they end alike if such neighbours can be exchanged. -/
theorem foldl_eq_of_filter_eq (hstep : ∀ s a, p s → p (f s a))
    (hcomm : ∀ s a b, p s → key a ≠ key b → f (f s a) b = f (f s b) a) {xs ys : List α}
    (hsame : ∀ k, xs.filter (fun a => key a = k) = ys.filter (fun a => key a = k)) {s : σ}
    (hs : p s) : xs.foldl f s = ys.foldl f s := by
  induction xs generalizing ys s with
  | nil =>
    cases ys with
    | nil => rfl
    | cons y ys =>
      have hnone := hsame (key y)
      simp at hnone
  | cons x xs ih =>
    have hfirst : ys.filter (fun a => key a = key x) = x :: xs.filter fun a => key a = key x := by
      rw [← hsame (key x)]
      simp
    obtain ⟨before, after, rfl, hbefore, -, hafter⟩ := List.filter_eq_cons_iff.mp hfirst
    have hbefore : ∀ b ∈ before, key b ≠ key x := fun b hb heq =>
      hbefore b hb (decide_eq_true heq)
    have hrest : ∀ k, xs.filter (fun a => key a = k) =
        (before ++ after).filter fun a => key a = k := by
      intro k
      have hk := hsame k
      rw [List.filter_append, List.filter_cons, List.filter_cons] at hk
      rw [List.filter_append]
      split at hk
      · rename_i hx
        obtain rfl := of_decide_eq_true hx
        have hnone : before.filter (fun a => key a = key x) = [] := by
          simpa using hbefore
        rw [hnone, List.nil_append] at hk ⊢
        exact List.tail_eq_of_cons_eq hk
      · exact hk
    rw [List.foldl_cons, ih hrest (hstep s x hs), List.foldl_append, List.foldl_append,
      List.foldl_cons, foldl_move_front hstep hcomm hbefore hs]

/-- Two orders that agree for each key are of the same items. -/
theorem perm_of_filter_eq {xs ys : List α}
    (hsame : ∀ k, xs.filter (fun a => key a = k) = ys.filter (fun a => key a = k)) :
    xs.Perm ys := by
  classical
  refine List.perm_iff_count.mpr fun a => ?_
  have hcount : ∀ zs : List α, (zs.filter fun b => key b = key a).count a = zs.count a :=
    fun _ => List.count_filter (decide_eq_true rfl)
  rw [← hcount xs, hsame (key a), hcount ys]

end

/-! ## Completions -/

/-- A transport that is told what to answer, and keeps the posts. -/
structure ToldTransport where
  next : Answer
  posts : List Post

instance : Transport ToldTransport where
  name := "told"
  post t p := (t.next, { t with posts := t.posts ++ [p] })

/-- A push with the answer that it gets, posted or not. -/
structure Turn where
  push : Outgoing
  answer : Answer
  posted : Bool
deriving DecidableEq

namespace Turn

def subscriber (t : Turn) : SubscriptionId := t.push.subscription.id

/-- What becomes of the push. Without a post it has failed, whatever the answer would be. -/
def outcome (t : Turn) : Outcome :=
  if t.posted then .ofAnswer t.answer else .failed none

end Turn

/-- A push is done: what its post is answered with, and when. -/
structure Completion where
  push : Outgoing
  answer : Answer
  time : Timestamp

namespace Completion

def parcel (d : Completion) : Parcel := .push d.push

/-- The post of the push, if it can be encoded. -/
def post? (d : Completion) : Option Post := (d.push.post d.time).toOption

/-- The completion without its time. -/
def turn (d : Completion) : Turn := ⟨d.push, d.answer, d.post?.isSome⟩

/-- Two orders do the same pushes with the same answers, at whatever times, those of each subscription
in the same order. They agree on which of the pushes can be encoded: that may depend on the time, as the
text of a time has more digits or fewer and there is a greatest size. -/
def SameTurns (xs ys : List Completion) : Prop :=
  ∀ id, (xs.map turn).filter (fun t => t.subscriber = id) =
    (ys.map turn).filter (fun t => t.subscriber = id)

theorem SameTurns.parcels {xs ys : List Completion} (h : SameTurns xs ys) :
    (xs.map parcel).Perm (ys.map parcel) := by
  have hmap := (perm_of_filter_eq h).map fun t => Parcel.push t.push
  rwa [List.map_map, List.map_map] at hmap

end Completion

/-! ### What is posted -/

/-- Two posts to one address, which are the same or hold one event in envelopes of different times. -/
structure Post.SameButTime (p p' : Post) : Prop where
  address : p.address = p'.address
  contentType : p.contentType = p'.contentType
  body : p.body = p'.body ∨ ∃ (e : Event) (time time' : Timestamp),
    Envelope.format.toPayload (.delivering e time) = .ok p.body ∧
    Envelope.format.toPayload (.delivering e time') = .ok p'.body

/-- At whatever times a push is posted, the posts differ in the time alone. -/
theorem Outgoing.post_sameButTime {o : Outgoing} {time time' : Timestamp} {p p' : Post}
    (h : o.post time = .ok p) (h' : o.post time' = .ok p') : p.SameButTime p' := by
  unfold post at h h'
  by_cases henveloped : o.subscription.enveloped = true
  · rw [if_pos henveloped] at h h'
    cases hbody : Envelope.format.toPayload (.delivering o.event time) with
    | error e => cases hbody ▸ h
    | ok body =>
      cases hbody' : Envelope.format.toPayload (.delivering o.event time') with
      | error e => cases hbody' ▸ h'
      | ok body' =>
        cases hbody ▸ h
        cases hbody' ▸ h'
        exact ⟨rfl, rfl, .inr ⟨o.event, time, time', hbody, hbody'⟩⟩
  · rw [if_neg henveloped] at h h'
    cases Except.ok.inj (h.symm.trans h')
    exact ⟨rfl, rfl, .inl rfl⟩

namespace Completion

/-- Completions that agree but for their times post alike, or neither posts. -/
theorem post?_sameButTime {d d' : Completion} (h : d'.turn = d.turn) :
    Option.Rel Post.SameButTime d.post? d'.post? := by
  obtain ⟨hpush, -, hposted⟩ := Turn.mk.inj h
  unfold post? at hposted ⊢
  rw [hpush] at hposted ⊢
  cases hpost : d.push.post d.time with
  | error e =>
    cases hpost' : d.push.post d'.time with
    | error e' => exact .none
    | ok p' => rw [hpost, hpost'] at hposted; cases hposted
  | ok p =>
    cases hpost' : d.push.post d'.time with
    | error e' => rw [hpost, hpost'] at hposted; cases hposted
    | ok p' => exact .some (Outgoing.post_sameButTime hpost hpost')

/-- Both orders post the same, but for the times in envelopes. -/
theorem SameTurns.posts {xs ys : List Completion} (h : SameTurns xs ys) :
    ∃ posts, List.Forall₂ Post.SameButTime (xs.filterMap post?) posts ∧
      posts.Perm (ys.filterMap post?) := by
  have hys : List.Forall₂ (fun t d => Completion.turn d = t) (ys.map turn) ys :=
    List.forall₂_map_left_iff.mpr (List.forall₂_same.mpr fun _ _ => rfl)
  -- the second order, put in the sequence of the first
  obtain ⟨zs, hzs, hperm⟩ := List.perm_comp_forall₂ (perm_of_filter_eq h) hys
  have hturns : List.Forall₂ (fun d d' => Completion.turn d' = d.turn) xs zs :=
    List.forall₂_map_left_iff.mp hzs
  exact ⟨zs.filterMap post?, List.rel_filterMap (fun _ _ hturn => post?_sameButTime hturn) hturns,
    hperm.filterMap post?⟩

end Completion

/-- Only pushes of one outcome count for it, and each counts once. -/
theorem Books.value_settled (b : Books) (id : SubscriptionId) (o o' : Outcome) :
    (b.settled id o).counters.value (.pushed o') =
      b.counters.value (.pushed o') + if o.label = o'.label then 1 else 0 := by
  have hpushed : (Counter.pushed o').name = (Counter.pushed o).name ↔ o.label = o'.label := by
    cases o <;> cases o' <;> simp only [Counter.name, Outcome.label] <;> decide
  have hremoved : ∀ why, (Counter.pushed o').name ≠ (Counter.removed why).name := by
    rintro ⟨⟩ <;> cases o' <;> simp only [Counter.name, Outcome.label] <;> decide
  have hbump : (b.counters.bump (.pushed o)).value (.pushed o') =
      b.counters.value (.pushed o') + if o.label = o'.label then 1 else 0 := by
    rw [Counters.value_bump]
    by_cases hsame : o.label = o'.label
    · rw [if_pos (hpushed.mpr hsame), if_pos hsame, Counters.value, Counters.value,
        hpushed.mpr hsame]
    · rw [if_neg (mt hpushed.mp hsame), if_neg hsame, Nat.add_zero]
  unfold settled counted
  cases ((b.registry.account id).settled b.registry.failureLimit o).2 with
  | none => exact hbump
  | some why => exact (Counters.value_bump _ _ _).trans ((if_neg (hremoved why)).trans hbump)

theorem Books.value_foldl_settled (b : Books) (ds : List Completion) (o : Outcome) :
    (ds.foldl (fun b d => b.settled d.turn.subscriber d.turn.outcome) b).counters.value (.pushed o) =
      b.counters.value (.pushed o) + ds.countP fun d => d.turn.outcome.label = o.label := by
  induction ds generalizing b with
  | nil => rfl
  | cons d ds ih =>
    rw [List.foldl_cons, ih, value_settled, List.countP_cons]
    simp only [decide_eq_true_eq]
    omega

namespace Courier

variable {c : Courier MemoryStore ToldTransport}

/-- The courier after one of the pushes that wait is done. -/
def complete (c : Courier MemoryStore ToldTransport) (d : Completion) :
    Courier MemoryStore ToldTransport :=
  { c with transport := { c.transport with next := d.answer } }.finish d.time
    (c.waiting.idxOf d.parcel)

def completeAll (c : Courier MemoryStore ToldTransport) (ds : List Completion) :
    Courier MemoryStore ToldTransport :=
  ds.foldl complete c

def books (c : Courier MemoryStore ToldTransport) : Books := ⟨c.registry, c.counters⟩

/-! ### One push -/

section
variable {τ : Type} [Transport τ] {c : Courier MemoryStore τ}

omit [Transport τ] in
theorem waiting_settle (id : SubscriptionId) (o : Outcome) :
    (c.settle id o).waiting = c.waiting ∧ (c.settle id o).transport = c.transport := by
  unfold settle
  grind [count]

omit [Transport τ] in
theorem counters_settle (id : SubscriptionId) (o : Outcome) :
    (c.settle id o).counters =
      (((c.registry.account id).settled c.registry.failureLimit o).2.map Counter.removed).toList.foldl
        Counters.bump c.counters := by
  cases o with
  | delivered =>
    rw [settle]
    cases c.registry.recordSuccess id <;> rfl
  | reset => rfl
  | failed status =>
    cases hget : c.registry.store.subscriptions.get? id with
    | none =>
      rw [settle, Registry.recordFailure_unknown hget]
      simp only [Account.settled, Registry.account, hget]
      rfl
    | some s =>
      rw [settle, Registry.recordFailure_known hget]
      simp only [Account.settled, Registry.account, hget]
      by_cases hle : s.countFailure.failedPushes ≤ c.registry.failureLimit
      · rw [if_pos hle, if_pos hle]
        rfl
      · rw [if_neg hle, if_neg hle]
        rfl

theorem send_else (post : Except CodecError Post) :
    (c.send post).2 = { c with transport := (c.send post).2.transport } := by
  cases post <;> rfl

/-- A push that waits, and is done. -/
theorem finish_push (now : Timestamp) {o : Outgoing} {i : Nat}
    (h : c.waiting[i]? = some (.push o)) :
    let sent := { c with waiting := c.waiting.eraseIdx i }.send (o.post now)
    let outcome := Outcome.ofAnswer sent.1
    let after := c.finish now i
    after.waiting = c.waiting.eraseIdx i ∧ after.transport = sent.2.transport ∧
    after.registry = c.registry.settled o.subscription.id outcome ∧
    after.counters = (Books.counted ⟨c.registry, c.counters⟩ o.subscription.id outcome).foldl
      Counters.bump c.counters := by
  intro sent outcome after
  have hafter : after = (sent.2.count (.pushed outcome)).settle o.subscription.id outcome := by
    show c.finish now i = _
    rw [finish, h]
    rfl
  have hsent : sent.2 = _ := send_else (c := { c with waiting := c.waiting.eraseIdx i }) (o.post now)
  obtain ⟨hwaiting, htransport⟩ :=
    waiting_settle (c := sent.2.count (.pushed outcome)) o.subscription.id outcome
  rw [hafter]
  refine ⟨hwaiting.trans ?_, htransport, (registry_settle _ _ _).trans ?_,
    (counters_settle _ _).trans ?_⟩ <;> rw [hsent] <;> rfl

end

theorem complete_queued {d : Completion} (h : d.parcel ∈ c.waiting) :
    (c.complete d).waiting = c.waiting.erase d.parcel ∧
    (c.complete d).transport.posts = c.transport.posts ++ d.post?.toList ∧
    (c.complete d).books = c.books.settled d.turn.subscriber d.turn.outcome := by
  let told : Courier MemoryStore ToldTransport :=
    { c with transport := { c.transport with next := d.answer } }
  have hfound : told.waiting[c.waiting.idxOf d.parcel]? = some (.push d.push) := by
    have hlt := List.idxOf_lt_length_iff.mpr h
    rw [List.getElem?_eq_getElem hlt, List.getElem_idxOf hlt]
    rfl
  have hsent : ∀ c : Courier MemoryStore ToldTransport, c.transport.next = d.answer →
      Outcome.ofAnswer (c.send (d.push.post d.time)).1 = d.turn.outcome ∧
      (c.send (d.push.post d.time)).2.transport.posts = c.transport.posts ++ d.post?.toList := by
    rintro c hnext
    unfold Turn.outcome Completion.turn Completion.post?
    cases d.push.post d.time with
    | error e => exact ⟨rfl, (List.append_nil _).symm⟩
    | ok p => exact ⟨congrArg Outcome.ofAnswer hnext, rfl⟩
  obtain ⟨hwaiting, htransport, hregistry, hcounters⟩ := finish_push d.time hfound
  obtain ⟨houtcome, hposts⟩ := hsent { told with waiting := told.waiting.eraseIdx _ } rfl
  rw [houtcome] at hregistry hcounters
  refine ⟨hwaiting.trans ?_, (congrArg _ htransport).trans hposts, ?_⟩
  · exact List.eraseIdx_idxOf_eq_erase d.parcel c.waiting
  · exact congrArg₂ Books.mk hregistry hcounters

/-! ### Whole orders -/

/-- Every push of an order is posted once, unless it cannot be encoded, and counted once. -/
structure OnceEach (c : Courier MemoryStore ToldTransport) (ds : List Completion) : Prop where
  waiting : (ds.map Completion.parcel ++ (c.completeAll ds).waiting).Perm c.waiting
  posts : (c.completeAll ds).transport.posts = c.transport.posts ++ ds.filterMap Completion.post?
  pushed : ∀ o, (c.completeAll ds).counters.value (.pushed o) =
    c.counters.value (.pushed o) + ds.countP fun d => d.turn.outcome.label = o.label

theorem onceEach {ds : List Completion} (h : (ds.map Completion.parcel).Subperm c.waiting) :
    (c.completeAll ds).waiting = c.waiting.diff (ds.map Completion.parcel) ∧
    (c.completeAll ds).books = ds.foldl (fun b d => b.settled d.turn.subscriber d.turn.outcome) c.books ∧
    c.OnceEach ds := by
  have hrun : ∀ (ds : List Completion) (c : Courier MemoryStore ToldTransport),
      (ds.map Completion.parcel).Subperm c.waiting →
      (c.completeAll ds).waiting = c.waiting.diff (ds.map Completion.parcel) ∧
      (c.completeAll ds).books = ds.foldl (fun b d => b.settled d.turn.subscriber d.turn.outcome) c.books ∧
      (c.completeAll ds).transport.posts =
        c.transport.posts ++ ds.filterMap Completion.post? := by
    intro ds
    induction ds with
    | nil => exact fun c _ => ⟨rfl, rfl, (List.append_nil _).symm⟩
    | cons d ds ih =>
      intro c h
      obtain ⟨hwaiting, hposts, hbooks⟩ := complete_queued (h.subset List.mem_cons_self)
      have hrest : (ds.map Completion.parcel).Subperm (c.complete d).waiting := by
        have herase := h.erase d.parcel
        rw [List.map_cons, List.erase_cons_head, ← hwaiting] at herase
        exact herase
      obtain ⟨hwaiting', hbooks', hposts'⟩ := ih (c.complete d) hrest
      refine ⟨?_, ?_, ?_⟩
      · rw [List.map_cons, List.diff_cons, ← hwaiting]
        exact hwaiting'
      · rw [List.foldl_cons, ← hbooks]
        exact hbooks'
      · refine hposts'.trans ?_
        rw [hposts, List.append_assoc, List.filterMap_cons]
        cases d.post? <;> rfl
  obtain ⟨hwaiting, hbooks, hposts⟩ := hrun ds c h
  refine ⟨hwaiting, hbooks, ?_, hposts, fun o => ?_⟩
  · rw [hwaiting]
    exact List.subperm_append_diff_self_of_count_le fun p _ => h.count_le p
  · exact (congrArg (fun b : Books => b.counters.value (.pushed o)) hbooks).trans
      (Books.value_foldl_settled c.books ds o)

/-- What the two orders have posted is the same, but for the times in envelopes. -/
theorem posts_agree {xs ys : List Completion} (hqueued : (xs.map Completion.parcel).Subperm c.waiting)
    (hsame : Completion.SameTurns xs ys) :
    ∃ posts posts', (c.completeAll xs).transport.posts = c.transport.posts ++ posts ∧
      (c.completeAll ys).transport.posts = c.transport.posts ++ posts' ∧
      ∃ paired, List.Forall₂ Post.SameButTime posts paired ∧ paired.Perm posts' := by
  obtain ⟨-, -, honce⟩ := onceEach hqueued
  obtain ⟨-, -, honce'⟩ := onceEach (hsame.parcels.subperm_right.mp hqueued)
  exact ⟨_, _, honce.posts, honce'.posts, hsame.posts⟩

/-- **Orders of completion.** In every reachable state, let pushes that wait be done in two orders that
agree on the pushes of each subscription, with the same answers. In both, every push leaves the queue,
is posted once if it can be encoded, and counts once for its outcome. Both end with the same
subscriptions, indexes and schedule, the same counters and the same parcels left, and have posted the
same pushes. -/
theorem orders_agree (c : Courier MemoryStore ToldTransport) (prior : List StoreOp)
    (hprior : StoreOp.Fresh MemoryStore.empty prior)
    (hstore : c.registry.store = StoreOp.run MemoryStore.empty prior)
    (xs ys : List Completion) (hqueued : (xs.map Completion.parcel).Subperm c.waiting)
    (hsame : Completion.SameTurns xs ys) :
    c.OnceEach xs ∧ c.OnceEach ys ∧
    (c.completeAll xs).registry = (c.completeAll ys).registry ∧
    (c.completeAll xs).counters = (c.completeAll ys).counters ∧
    (c.completeAll xs).waiting = (c.completeAll ys).waiting ∧
    ((xs.filter fun d => d.post?.isSome).map Completion.push).Perm
      ((ys.filter fun d => d.post?.isSome).map Completion.push) := by
  have hparcels := hsame.parcels
  have hposted : ((xs.filter fun d => d.post?.isSome).map Completion.push).Perm
      ((ys.filter fun d => d.post?.isSome).map Completion.push) := by
    have hfilter := ((perm_of_filter_eq hsame).filter Turn.posted).map Turn.push
    rwa [List.filter_map, List.filter_map, List.map_map, List.map_map] at hfilter
  obtain ⟨hwaiting, hbooks, honce⟩ := onceEach hqueued
  obtain ⟨hwaiting', hbooks', honce'⟩ := onceEach (hparcels.subperm_right.mp hqueued)
  have hconsistent : c.books.registry.store.Consistent := by
    show c.registry.store.Consistent
    rw [hstore]
    exact MemoryStore.Consistent.empty.run prior hprior
  have hfold : (xs.map Completion.turn).foldl (fun b t => b.settled t.subscriber t.outcome) c.books =
      (ys.map Completion.turn).foldl (fun b t => b.settled t.subscriber t.outcome) c.books :=
    foldl_eq_of_filter_eq (p := fun b : Books => b.registry.store.Consistent)
      (fun b t hb => Registry.settled_consistent hb t.outcome)
      (fun b t u hb hne => Books.settled_comm hb hne t.outcome u.outcome) hsame hconsistent
  rw [List.foldl_map, List.foldl_map, ← hbooks, ← hbooks'] at hfold
  refine ⟨honce, honce', congrArg Books.registry hfold, congrArg Books.counters hfold, ?_, hposted⟩
  rw [hwaiting, hwaiting']
  exact hparcels.diff_left c.waiting

def numberedTo (id number : String) : Outgoing :=
  ⟨{ (Subscription.pushing "" "http://a").withLine "1" with id }, .situation (.numbered number 1)⟩

/-- Two subscribers to one line, of whom one failed push is tolerated. Two pushes to each wait, and a
notice between them. -/
def twoSubscribers : Courier MemoryStore ToldTransport where
  registry := ⟨StoreOp.run .empty
      [.add "a" (numberedTo "a" "1").subscription, .add "b" (numberedTo "b" "1").subscription],
    ((∅ : TimestampMap).insert "a" .epoch).insert "b" .epoch, ⟨toString, 2⟩, 1⟩
  transport := ⟨.ok 200, []⟩
  counters := ∅
  waiting := [.push (numberedTo "a" "1"), .push (numberedTo "a" "2"),
    .notice .heartbeat "http://a" (.heartbeat none .epoch),
    .push (numberedTo "b" "1"), .push (numberedTo "b" "2")]

/-- The first subscriber's pushes fail twice, and the second asks to be sent nothing more. -/
def inQueueOrder : List Completion :=
  [⟨numberedTo "a" "1", .ok 500, .epoch⟩, ⟨numberedTo "a" "2", .error .timeout, .epoch⟩,
    ⟨numberedTo "b" "1", .ok 205, .epoch⟩, ⟨numberedTo "b" "2", .ok 200, .epoch⟩]

/-- The same at other times, with the second subscriber's pushes in between. -/
def inTurns : List Completion :=
  let later : Timestamp := ⟨30, 0, by decide⟩
  [⟨numberedTo "b" "1", .ok 205, .epoch⟩, ⟨numberedTo "a" "1", .ok 500, later⟩,
    ⟨numberedTo "b" "2", .ok 200, later⟩, ⟨numberedTo "a" "2", .error .timeout, later⟩]

theorem orders_agree_twoSubscribers :
    Completion.SameTurns inQueueOrder inTurns ∧
    (inQueueOrder.map Completion.parcel).Subperm twoSubscribers.waiting ∧
    twoSubscribers.OnceEach inQueueOrder ∧ twoSubscribers.OnceEach inTurns ∧
    (twoSubscribers.completeAll inQueueOrder).registry =
      (twoSubscribers.completeAll inTurns).registry ∧
    (twoSubscribers.completeAll inTurns).waiting =
      [.notice .heartbeat "http://a" (.heartbeat none .epoch)] ∧
    (twoSubscribers.completeAll inTurns).registry.store = .empty ∧
    (twoSubscribers.completeAll inTurns).counters.value (.removed .failedPushes) = 1 := by
  have hqueue : inQueueOrder.map Completion.turn =
      [⟨numberedTo "a" "1", .ok 500, true⟩, ⟨numberedTo "a" "2", .error .timeout, true⟩,
        ⟨numberedTo "b" "1", .ok 205, true⟩, ⟨numberedTo "b" "2", .ok 200, true⟩] := by decide
  have hturns : inTurns.map Completion.turn =
      [⟨numberedTo "b" "1", .ok 205, true⟩, ⟨numberedTo "a" "1", .ok 500, true⟩,
        ⟨numberedTo "b" "2", .ok 200, true⟩, ⟨numberedTo "a" "2", .error .timeout, true⟩] := by decide
  have hsame : Completion.SameTurns inQueueOrder inTurns := by
    intro id
    rw [hqueue, hturns]
    have ha : ∀ number, (numberedTo "a" number).subscription.id = "a" := fun _ => rfl
    have hb : ∀ number, (numberedTo "b" number).subscription.id = "b" := fun _ => rfl
    simp only [List.filter_cons, Turn.subscriber, ha, hb]
    by_cases hid : id = "a"
    · subst hid
      rfl
    · simp [Ne.symm hid]
  have hqueued : (inQueueOrder.map Completion.parcel).Subperm twoSubscribers.waiting :=
    List.Sublist.subperm (by decide)
  obtain ⟨honce, honce', hregistry, -, -, -⟩ :=
    orders_agree twoSubscribers _ (by decide) rfl inQueueOrder inTurns hqueued hsame
  exact ⟨hsame, hqueued, honce, honce', hregistry, by decide, by decide, by decide⟩

end Courier
end TransitPush
