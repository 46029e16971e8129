import Mathlib.Data.List.Induction
import TransitPush.Proofs.Routing.Pushes
/-!
# Runs of a hub

What happens to a hub as far as pushes go: events are routed, old pushes are forgotten, subscriptions
and live routes change, in any order. A run answers each operation, and leaves a log of the pushes
that were made.

* `HubOp.Orderly`: time goes on without leap seconds, and subscriptions are added under identifiers
  that are not in use and have no underscore.
* `HubOp.run_append`, `HubOp.answers_append`, `HubOp.log_append`: a run is taken apart.
* `Hub.route_lookedUp`: whether an event is refused, passed over or routed, in one equation.
* `HubOp.run_store`, `HubOp.run_named`: the store that an orderly run leads to.
-/
namespace TransitPush

/-- What may happen to a hub. Live routes change in any way. -/
inductive HubOp where
  | route (e : Event) (now : Timestamp)
  | evict (now : Timestamp)
  | store (op : StoreOp)
  | live (f : LiveRoutes → LiveRoutes)

inductive HubAnswer where
  | routed (pushes : Except RouteError (List Outgoing))
  | evicted (count : Nat)
  | stored (answer : StoreAnswer)
  | done

def HubAnswer.isEvicted : HubAnswer → Bool
  | evicted _ => true
  | _ => false

/-- A push in the log: its fingerprint and its time. -/
structure LoggedPush where
  mark : String
  time : Timestamp
deriving DecidableEq

namespace HubOp

def isEvict : HubOp → Bool
  | evict _ => true
  | _ => false

/-- When the operation happens, if the hub takes notice of it. -/
def time? : HubOp → Option Timestamp
  | route _ now => some now
  | evict now => some now
  | _ => none

def storeOp? : HubOp → Option StoreOp
  | store op => some op
  | _ => none

variable {τ : Type}

/-- What an operation answers, and the hub after it. -/
def apply (h : Hub MemoryStore τ) : HubOp → HubAnswer × Hub MemoryStore τ
  | route e now =>
    match h.route e now with
    | .ok (pushes, h) => (.routed (.ok pushes), h)
    | .error err => (.routed (.error err), h)
  | evict now =>
    let (count, h) := h.evictPushes now
    (.evicted count, h)
  | store op =>
    let (answer, changed) := op.apply h.store
    (.stored answer, h.withRegistry { h.registry with store := changed })
  | live f => (.done, { h with routes := f h.routes })

def pushed (h : Hub MemoryStore τ) : HubOp → List LoggedPush
  | route e now =>
    match h.route e now with
    | .ok (pushes, _) =>
      ((h.candidates e).filter fun m => m.outgoing ∈ pushes).map fun m => ⟨m.mark, now⟩
    | .error _ => []
  | _ => []

def run (h : Hub MemoryStore τ) : List HubOp → Hub MemoryStore τ
  | [] => h
  | op :: ops => run (op.apply h).2 ops

def answers (h : Hub MemoryStore τ) : List HubOp → List HubAnswer
  | [] => []
  | op :: ops => (op.apply h).1 :: answers (op.apply h).2 ops

def log (h : Hub MemoryStore τ) : List HubOp → List LoggedPush
  | [] => []
  | op :: ops => op.pushed h ++ log (op.apply h).2 ops

def times (ops : List HubOp) : List Timestamp :=
  ops.filterMap time?

def storeOps (ops : List HubOp) : List StoreOp :=
  ops.filterMap storeOp?

/-- Time goes on and shows no leap second. What is added to the store, empty at first, gets an
identifier that is not in use and has no underscore. -/
structure Orderly (ops : List HubOp) : Prop where
  ascending : (times ops).Pairwise (· ≤ ·)
  noLeap : ∀ t ∈ times ops, t.isLeap = false
  fresh : StoreOp.Fresh MemoryStore.empty (storeOps ops)
  plain : ∀ op ∈ storeOps ops, op.Plain

/-! ## A run taken apart -/

variable {h : Hub MemoryStore τ} {ops later : List HubOp}

theorem run_append : run h (ops ++ later) = run (run h ops) later := by
  induction ops generalizing h with
  | nil => rfl
  | cons op ops ih => exact ih

theorem answers_append : answers h (ops ++ later) = answers h ops ++ answers (run h ops) later := by
  induction ops generalizing h with
  | nil => rfl
  | cons op ops ih =>
    rw [List.cons_append, answers, ih]
    rfl

theorem log_append : log h (ops ++ later) = log h ops ++ log (run h ops) later := by
  induction ops generalizing h with
  | nil => rfl
  | cons op ops ih =>
    rw [List.cons_append, log, ih, ← List.append_assoc]
    rfl

theorem times_append : times (ops ++ later) = times ops ++ times later :=
  List.filterMap_append

theorem storeOps_append : storeOps (ops ++ later) = storeOps ops ++ storeOps later :=
  List.filterMap_append

theorem Orderly.prior (ho : Orderly (ops ++ later)) : Orderly ops := by
  obtain ⟨hascending, hleap, hfresh, hplain⟩ := ho
  rw [times_append] at hascending hleap
  rw [storeOps_append] at hfresh hplain
  exact ⟨(List.pairwise_append.mp hascending).1,
    fun t ht => hleap t (List.mem_append_left _ ht),
    (StoreOp.fresh_append.mp hfresh).1,
    fun op hop => hplain op (List.mem_append_left _ hop)⟩

end HubOp

/-! ## What routing does to a hub -/

theorem DedupCache.ttl_evictExpired {c : DedupCache} {now : Timestamp} :
    (c.evictExpired now).2.ttl = c.ttl := by
  unfold evictExpired
  split <;> rfl

namespace Hub

variable {τ : Type} {h : Hub MemoryStore τ} {e : Event} {now : Timestamp}

/-- The copies that are looked up when an event is routed: none if it is refused or passed over. -/
def lookedUp (h : Hub MemoryStore τ) (e : Event) : List Marked :=
  match e.check with
  | .error _ => []
  | .ok () => if e.isAccepted h.accepted then h.candidates e else []

theorem lookedUp_refused {err : RouteError} (hcheck : e.check = .error err) :
    h.lookedUp e = [] := by
  rw [lookedUp, hcheck]

theorem lookedUp_routed (hcheck : e.check = .ok ()) (ha : e.Accepted h.accepted) :
    h.lookedUp e = h.candidates e := by
  rw [lookedUp, hcheck]
  exact if_pos (Event.isAccepted_iff.mpr ha)

theorem lookedUp_unaccepted (hcheck : e.check = .ok ()) (ha : ¬ e.Accepted h.accepted) :
    h.lookedUp e = [] := by
  rw [lookedUp, hcheck]
  exact if_neg fun hacc => ha (Event.isAccepted_iff.mp hacc)

theorem lookedUp_sublist : (h.lookedUp e).Sublist (h.candidates e) := by
  unfold lookedUp
  split
  · exact List.nil_sublist _
  · split
    · exact List.Sublist.refl _
    · exact List.nil_sublist _

/-- Refused, passed over or routed: the copies looked up that are due are pushed and entered. -/
theorem route_lookedUp (hn : h.store.Named) :
    h.route e now = e.check.map fun _ =>
      let pushed := h.dedup.due now (h.lookedUp e)
      (pushed.map Marked.outgoing,
        { h with dedup := h.dedup.recorded now (pushed.map Marked.mark) (h.lookedUp e).length }) := by
  by_cases hm : e.Malformed
  · obtain ⟨err, herr⟩ := Event.check_malformed hm
    rw [route_refused herr, herr]
    rfl
  · have hcheck := Event.check_wellFormed hm
    rw [hcheck]
    by_cases ha : e.Accepted h.accepted
    · rw [route_eq hn hm ha, ← lookedUp_routed hcheck ha]
      rfl
    · rw [route_unaccepted hm ha, lookedUp_unaccepted hcheck ha]
      rfl

/-- Copies that make the same push are the same. -/
theorem candidates_inj (hn : h.store.Named) {a b : Marked} (ha : a ∈ h.candidates e)
    (hb : b ∈ h.candidates e) (hsame : a.outgoing = b.outgoing) : a = b := by
  have hnodup : ((h.candidates e).map fun m => m.outgoing.subscription.id).Nodup := by
    refine List.pairwise_map.mpr ((ids_candidates hn).imp fun hlt hid => ?_)
    rw [hid] at hlt
    exact String.lt_irrefl _ hlt
  exact List.inj_on_of_nodup_map hnodup ha hb (by rw [hsame])

/-- A candidate is pushed exactly if it is due. -/
theorem outgoing_mem_due (hn : h.store.Named) {m : Marked} (hm : m ∈ h.candidates e) :
    m.outgoing ∈ (h.dedup.due now (h.candidates e)).map Marked.outgoing ↔
      m ∈ h.dedup.due now (h.candidates e) := by
  rw [List.mem_map]
  constructor
  · intro hmem
    obtain ⟨n, hdue, hsame⟩ := hmem
    rwa [candidates_inj hn (List.mem_of_mem_filter hdue) hm hsame] at hdue
  · exact fun hdue => ⟨m, hdue, rfl⟩

end Hub

namespace HubOp

variable {τ : Type} {h : Hub MemoryStore τ} {ops : List HubOp}

/-! ## What an operation leaves alone -/

theorem apply_route (hn : h.store.Named) (e : Event) (now : Timestamp) :
    (route e now).apply h =
      let due := h.dedup.due now (h.lookedUp e)
      (.routed (e.check.map fun _ => due.map Marked.outgoing),
        { h with dedup := h.dedup.recorded now (due.map Marked.mark) (h.lookedUp e).length }) := by
  rw [apply, Hub.route_lookedUp hn]
  cases hcheck : e.check with
  | ok u => rfl
  | error err =>
    rw [Hub.lookedUp_refused hcheck]
    rfl

theorem pushed_route (hn : h.store.Named) (e : Event) (now : Timestamp) :
    (route e now).pushed h =
      (h.dedup.due now (h.lookedUp e)).map fun m => ⟨m.mark, now⟩ := by
  rw [pushed, Hub.route_lookedUp hn]
  cases hcheck : e.check with
  | error err =>
    rw [Hub.lookedUp_refused hcheck]
    rfl
  | ok u =>
    simp only [Except.map]
    refine congrArg _ ?_
    by_cases ha : e.Accepted h.accepted
    · rw [Hub.lookedUp_routed hcheck ha]
      refine List.filter_congr fun m hm => Bool.eq_iff_iff.mpr ?_
      rw [decide_eq_true_eq, Hub.outgoing_mem_due hn hm, DedupCache.due, List.mem_filter]
      exact and_iff_right hm
    · rw [Hub.lookedUp_unaccepted hcheck ha]
      exact List.filter_eq_nil_iff.mpr fun m _ => by simp [DedupCache.due]

theorem apply_store (hn : h.store.Named) (op : HubOp) :
    (op.apply h).2.store = StoreOp.run h.store (storeOps [op]) := by
  cases op with
  | route e now =>
    rw [apply_route hn]
    rfl
  | evict now => rfl
  | store op => rfl
  | live f => rfl

/-- Who is accepted and how long pushes are remembered never changes. -/
theorem apply_settings (hn : h.store.Named) (op : HubOp) :
    (op.apply h).2.accepted = h.accepted ∧ (op.apply h).2.dedup.ttl = h.dedup.ttl := by
  cases op with
  | route e now =>
    rw [apply_route hn]
    exact ⟨rfl, rfl⟩
  | evict now => exact ⟨rfl, DedupCache.ttl_evictExpired⟩
  | store op => exact ⟨rfl, rfl⟩
  | live f => exact ⟨rfl, rfl⟩

/-! ## What a run leaves alone -/

theorem run_store (hstore : h.store = MemoryStore.empty) (ho : Orderly ops) :
    (run h ops).store = StoreOp.run MemoryStore.empty (storeOps ops) := by
  induction ops using List.reverseRecOn with
  | nil => exact hstore
  | append_singleton ops op ih =>
    have hprior := ih ho.prior
    have hn : (run h ops).store.Named := by
      rw [hprior]
      exact MemoryStore.Named.empty.run _ ho.prior.fresh ho.prior.plain
    rw [run_append, run, run, apply_store hn, hprior, storeOps_append, StoreOp.run_append]

theorem run_named (hstore : h.store = MemoryStore.empty) (ho : Orderly ops) :
    (run h ops).store.Named := by
  rw [run_store hstore ho]
  exact MemoryStore.Named.empty.run _ ho.fresh ho.plain

theorem run_settings (hstore : h.store = MemoryStore.empty) (ho : Orderly ops) :
    (run h ops).accepted = h.accepted ∧ (run h ops).dedup.ttl = h.dedup.ttl := by
  induction ops using List.reverseRecOn with
  | nil => exact ⟨rfl, rfl⟩
  | append_singleton ops op ih =>
    obtain ⟨haccepted, httl⟩ := apply_settings (run_named hstore ho.prior) op
    rw [run_append, run, run, haccepted, httl]
    exact ih ho.prior

end HubOp
end TransitPush
