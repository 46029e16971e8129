import TransitPush.Proofs.Store.Mutation
import TransitPush.Store.Refusing
/-!
# Stores that mirror the one in memory

A store that keeps its subscriptions elsewhere has the required operations only, and it may refuse to
write. As far as it does not refuse, it is to keep what the store in memory keeps. It changes
subscriptions in the common way, by putting back a changed copy, and the store in memory in place; that
this makes no difference follows from the required operations.

* `Mirrors`: what is asked of such a store, by means of a relation between its states and those of the
  store in memory. Nothing is asked of changes but that they are made in the common way.
* `Mirrors.modify`: a change is refused, if putting back the changed copy is, or it is made as in
  memory; `Mirrors.apply` says this of all operations.
* `Mirrors.run`: after every run, with refusals here and there, the store keeps what the store in
  memory keeps after the operations that were not refused.
* `RefusingStore.mirrors`: the store that can be told to refuse is such a store.
-/
namespace TransitPush

/-- Putting back what a function makes of a stored subscription is refused. -/
def RefusesChange {σ : Type} [SubscriptionStore σ] (store : σ) (id : SubscriptionId)
    (f : Subscription → Subscription) (message : String) : Prop :=
  ∃ s, SubscriptionStore.get? store id = some s ∧
    SubscriptionStore.update store (f s) = .error (.backend message)

def StoreAnswer.isRefusal : StoreAnswer → Bool
  | refused (.backend _) => true
  | _ => false

namespace StoreOp

variable {σ τ : Type} [SubscriptionStore σ] [SubscriptionStore τ]

def isChange : StoreOp → Bool
  | modify _ _ => true
  | _ => false

/-- A store refuses an operation, and nothing changes. -/
def Refused (op : StoreOp) (store : σ) (message : String) : Prop :=
  op.apply store = (.refused (.backend message), store)

theorem refused_update {store : σ} {s : Subscription} {message : String} :
    (update s).Refused store message ↔
      SubscriptionStore.update store s = .error (.backend message) := by
  simp only [Refused, apply]
  cases SubscriptionStore.update store s <;> simp

theorem refused_remove {store : σ} {id : SubscriptionId} {message : String} :
    (remove id).Refused store message ↔
      SubscriptionStore.remove store id = .error (.backend message) := by
  simp only [Refused, apply]
  cases SubscriptionStore.remove store id <;> simp

/-- Two stores answer an operation alike, and what they are afterwards is related. -/
structure SameEffect (R : σ → τ → Prop) (op : StoreOp) (a : σ) (b : τ) : Prop where
  answer : (op.apply a).1 = (op.apply b).1
  store : R (op.apply a).2 (op.apply b).2

/-- The operations of a run that are not refused. -/
def accepted (store : σ) : List StoreOp → List StoreOp
  | [] => []
  | op :: ops =>
    if (op.apply store).1.isRefusal then accepted (op.apply store).2 ops
    else op :: accepted (op.apply store).2 ops

/-- A change in the common way is refused if putting back the changed copy is. -/
theorem modify_refused {store : σ} {id : SubscriptionId} {f : Subscription → Subscription}
    {message : String}
    (hcommon : SubscriptionStore.modify store id f = SubscriptionStore.modifyCommon store id f)
    (hrefuses : RefusesChange store id f message) : (modify id f).Refused store message := by
  obtain ⟨s, hget, hupdate⟩ := hrefuses
  have hmodify : SubscriptionStore.modify store id f = .error (.backend message) := by
    rw [hcommon, SubscriptionStore.modifyCommon, modifyByUpdate, hget]
    dsimp only
    rw [hupdate]
  simp only [Refused, apply, hmodify]

end StoreOp

/-- The store in memory never refuses to write. -/
theorem MemoryStore.isRefusal_apply (m : MemoryStore) (op : StoreOp) :
    (op.apply m).1.isRefusal = false := by
  cases op with
  | update s =>
    simp only [StoreOp.apply, SubscriptionStore.update, MemoryStore.update]
    cases m.subscriptions.get? s.id <;> rfl
  | add id s => rfl
  | modify id f => rfl
  | remove id => rfl
  | reload => rfl

/-- A store that keeps what the store in memory keeps, as `R` relates the two. It answers every query
alike, each operation that writes and is no change does the same or is refused, and changes are made in
the common way. -/
structure Mirrors {σ : Type} [SubscriptionStore σ] (R : σ → MemoryStore → Prop) : Prop where
  answers : ∀ {a m}, R a m → SameAnswers a m
  common : ∀ (a : σ) id f, SubscriptionStore.modify a id f = SubscriptionStore.modifyCommon a id f
  writes : ∀ {a m} (op : StoreOp), op.isChange = false → R a m → m.Consistent →
    op.FreshFor m → (∃ message, op.Refused a message) ∨ op.SameEffect R a m

/-- Related stores refuse neither to put a subscription back nor to remove one. -/
structure Willing {σ : Type} [SubscriptionStore σ] (R : σ → MemoryStore → Prop) : Prop where
  update : ∀ {a m}, R a m → ∀ s message, SubscriptionStore.update a s ≠ .error (.backend message)
  remove : ∀ {a m}, R a m → ∀ id message, SubscriptionStore.remove a id ≠ .error (.backend message)

namespace Mirrors

variable {σ : Type} [SubscriptionStore σ] {R : σ → MemoryStore → Prop} {a : σ} {m : MemoryStore}
  {id : SubscriptionId} {f : Subscription → Subscription}

/-! ## One operation -/

theorem update (hm : Mirrors R) (hR : R a m) (h : m.Consistent) {s before : Subscription}
    (hget : m.subscriptions.get? s.id = some before) :
    (∃ message, SubscriptionStore.update a s = .error (.backend message)) ∨
      ∃ a', SubscriptionStore.update a s = .ok a' ∧ R a' (m.replace before s) := by
  rcases hm.writes (.update s) rfl hR h trivial with ⟨message, hrefused⟩ | ⟨hanswer, hstore⟩
  · exact .inl ⟨message, StoreOp.refused_update.mp hrefused⟩
  · have hmemory : (StoreOp.update s).apply m = (.done, m.replace before s) := by
      simp only [StoreOp.apply, SubscriptionStore.update, MemoryStore.update_stored hget]
    rw [hmemory] at hanswer hstore
    cases hupdate : SubscriptionStore.update a s with
    | ok a' =>
      simp only [StoreOp.apply, hupdate] at hstore
      exact .inr ⟨a', rfl, hstore⟩
    | error e =>
      simp only [StoreOp.apply, hupdate] at hanswer
      cases hanswer

theorem remove (hm : Mirrors R) (hR : R a m) (h : m.Consistent) (id : SubscriptionId) :
    (∃ message, SubscriptionStore.remove a id = .error (.backend message)) ∨
      ∃ a', SubscriptionStore.remove a id = .ok ((m.remove id).1, a') ∧ R a' (m.remove id).2 := by
  rcases hm.writes (.remove id) rfl hR h trivial with ⟨message, hrefused⟩ | ⟨hanswer, hstore⟩
  · exact .inl ⟨message, StoreOp.refused_remove.mp hrefused⟩
  · have hmemory : (StoreOp.remove id).apply m = (.found (m.remove id).1, (m.remove id).2) := rfl
    rw [hmemory] at hanswer hstore
    cases hremove : SubscriptionStore.remove a id with
    | ok found =>
      simp only [StoreOp.apply, hremove, StoreAnswer.found.injEq] at hanswer hstore
      exact .inr ⟨found.2, by rw [← hanswer], hstore⟩
    | error e =>
      simp only [StoreOp.apply, hremove] at hanswer
      cases hanswer

/-- A change is refused if putting back the changed copy is, and else it is made as in memory. -/
theorem modify (hm : Mirrors R) (hR : R a m) (h : m.Consistent) (hkeeps : KeepsId m id f) :
    (∃ message, RefusesChange a id f message ∧
      SubscriptionStore.modify a id f = .error (.backend message)) ∨
    ∃ a', SubscriptionStore.modify a id f = .ok ((m.modify id f).1, a') ∧
      R a' (m.modify id f).2 := by
  have hsame : SubscriptionStore.get? a id = m.subscriptions.get? id := (hm.answers hR).get? id
  rw [hm.common, SubscriptionStore.modifyCommon, modifyByUpdate, hsame]
  cases hget : m.subscriptions.get? id with
  | none =>
    rw [MemoryStore.modify_unused hget]
    exact .inr ⟨a, rfl, hR⟩
  | some s =>
    have hid : (f s).id = id := hkeeps s hget
    have hstored : m.subscriptions.get? (f s).id = some s := by rw [hid, hget]
    dsimp only
    rw [h.modify_kept hget hid]
    rcases hm.update hR h hstored with ⟨message, hupdate⟩ | ⟨a', hupdate, hR'⟩
    · exact .inl ⟨message, ⟨s, hsame.trans hget, hupdate⟩, by rw [hupdate]⟩
    · exact .inr ⟨a', by rw [hupdate], hR'⟩

theorem sameEffect_modify (hm : Mirrors R) (hR : R a m) (h : m.Consistent) (hkeeps : KeepsId m id f)
    (haccepts : ∀ message, ¬ RefusesChange a id f message) :
    (StoreOp.modify id f).SameEffect R a m := by
  rcases hm.modify hR h hkeeps with ⟨message, hrefuses, -⟩ | ⟨a', hmodify, hR'⟩
  · exact absurd hrefuses (haccepts message)
  · have heffect : (StoreOp.modify id f).apply a = (.found (m.modify id f).1, a') := by
      simp only [StoreOp.apply, hmodify]
    constructor
    · rw [heffect]
      rfl
    · rw [heffect]
      exact hR'

/-- An operation is refused and changes nothing, or it does what it does in memory. -/
theorem apply (hm : Mirrors R) (hR : R a m) (h : m.Consistent) {op : StoreOp}
    (hfresh : op.FreshFor m) (hkeeps : ∀ id f, op = .modify id f → KeepsId m id f) :
    (∃ message, op.Refused a message) ∨ op.SameEffect R a m := by
  cases op with
  | modify id f =>
    by_cases hrefuses : ∃ message, RefusesChange a id f message
    · obtain ⟨message, hrefuses⟩ := hrefuses
      exact .inl ⟨message, StoreOp.modify_refused (hm.common a id f) hrefuses⟩
    · exact .inr (hm.sameEffect_modify hR h (hkeeps id f rfl) (not_exists.mp hrefuses))
  | add id s => exact hm.writes _ rfl hR h hfresh
  | update s => exact hm.writes _ rfl hR h hfresh
  | remove id => exact hm.writes _ rfl hR h hfresh
  | reload => exact hm.writes _ rfl hR h hfresh

/-! ## Runs -/

theorem freshFor (hm : Mirrors R) (hR : R a m) {op : StoreOp} (hfresh : op.FreshFor a) :
    op.FreshFor m := by
  cases op with
  | add id s => exact ((hm.answers hR).get? id).symm.trans hfresh
  | update s => exact trivial
  | modify id f => exact trivial
  | remove id => exact trivial
  | reload => exact trivial

/-- What is left of a run when the refused operations are taken out does in memory what the run did to
the store, and what was not refused is answered alike. -/
theorem run (hm : Mirrors R) (hR : R a m) (h : m.Consistent) (ops : List StoreOp)
    (hfresh : StoreOp.Fresh a ops)
    (hkeeps : ∀ id f, .modify id f ∈ ops → ∀ s, (f s).id = s.id) :
    StoreOp.Fresh m (StoreOp.accepted a ops) ∧
    R (StoreOp.run a ops) (StoreOp.run m (StoreOp.accepted a ops)) ∧
    (StoreOp.answers a ops).filter (!·.isRefusal) = StoreOp.answers m (StoreOp.accepted a ops) := by
  induction ops generalizing a m with
  | nil => exact ⟨trivial, hR, rfl⟩
  | cons op ops ih =>
    have hkeeps' : ∀ id f, .modify id f ∈ ops → ∀ s, (f s).id = s.id :=
      fun id f hmem => hkeeps id f (List.mem_cons_of_mem _ hmem)
    have hop : ∀ id f, op = .modify id f → KeepsId m id f :=
      fun id f he => h.keepsId (hkeeps id f (he ▸ List.mem_cons_self)) id
    have hfreshm : op.FreshFor m := hm.freshFor hR hfresh.1
    rw [StoreOp.accepted, StoreOp.run, StoreOp.answers]
    rcases hm.apply hR h hfreshm hop with ⟨message, hrefused⟩ | hsame
    · have hlater := hfresh.2
      rw [show op.apply a = (.refused (.backend message), a) from hrefused] at hlater ⊢
      exact ih hR h hlater hkeeps'
    · have hdone : (op.apply a).1.isRefusal = false := by
        rw [hsame.answer]
        exact m.isRefusal_apply op
      obtain ⟨hfresh', hR', hanswers⟩ := ih hsame.store (h.apply op hfreshm) hfresh.2 hkeeps'
      rw [if_neg (by rw [hdone]; exact Bool.false_ne_true),
        List.filter_cons_of_pos (by rw [hdone]; rfl), StoreOp.answers, hanswers, hsame.answer]
      exact ⟨⟨hfreshm, hfresh'⟩, hR', rfl⟩

end Mirrors

/-! ## A store that can refuse -/

/-- The write that an operation makes by itself. -/
def StoreOp.write? : StoreOp → Option WriteOp
  | add _ _ => some .add
  | update _ => some .update
  | remove _ => some .remove
  | modify _ _ | reload => none

namespace RefusingStore

variable {r : RefusingStore} {op : StoreOp} {w : WriteOp}

theorem permit_refused (h : w ∈ r.refused) :
    r.permit w = .error (.backend (w.name ++ " refused")) :=
  if_pos h

theorem permit_allowed (h : ¬ w ∈ r.refused) : r.permit w = .ok () :=
  if_neg h

theorem apply_refused (hop : op.write? = some w) (h : w ∈ r.refused) :
    op.Refused r (w.name ++ " refused") := by
  unfold StoreOp.Refused
  cases op with
  | add id s =>
    cases hop
    simp only [StoreOp.apply, SubscriptionStore.add, permit_refused h]
    rfl
  | update s =>
    cases hop
    simp only [StoreOp.apply, SubscriptionStore.update, permit_refused h]
    rfl
  | remove id =>
    cases hop
    simp only [StoreOp.apply, SubscriptionStore.remove, permit_refused h]
    rfl
  | modify id f => cases hop
  | reload => cases hop

/-- What is not refused is done by the store within. -/
theorem apply_allowed (hop : op.write? = some w) (h : ¬ w ∈ r.refused) :
    op.apply r = ((op.apply r.inner).1, { r with inner := (op.apply r.inner).2 }) := by
  cases op with
  | add id s =>
    cases hop
    simp only [StoreOp.apply, SubscriptionStore.add, permit_allowed h]
    rfl
  | update s =>
    cases hop
    simp only [StoreOp.apply, SubscriptionStore.update, permit_allowed h]
    cases r.inner.update s <;> rfl
  | remove id =>
    cases hop
    simp only [StoreOp.apply, SubscriptionStore.remove, permit_allowed h]
    rfl
  | modify id f => cases hop
  | reload => cases hop

theorem sameAnswers (r : RefusingStore) : SameAnswers r r.inner where
  get? _ := rfl
  list := rfl
  size := List.length_map _
  byName? _ := rfl
  byStop _ := rfl
  byLine _ := rfl
  byCodespace _ := rfl

/-- Whatever it is told to refuse, it mirrors the store within. -/
theorem mirrors (refused : List WriteOp) : Mirrors fun r m => r = RefusingStore.mk m refused where
  answers h := h ▸ sameAnswers _
  common _ _ _ := rfl
  writes {r m} op hop hinner h _ := by
    subst hinner
    cases hwrite : op.write? with
    | some w =>
      by_cases hr : w ∈ refused
      · exact .inl ⟨_, apply_refused hwrite hr⟩
      · have happly := apply_allowed (r := ⟨m, refused⟩) hwrite hr
        exact .inr ⟨by rw [happly], by rw [happly]⟩
    | none =>
      cases op with
      | modify id f => cases hop
      | reload => exact .inr ⟨rfl, congrArg (RefusingStore.mk · refused) h.reload_eq.symm⟩
      | add id s => cases hwrite
      | update s => cases hwrite
      | remove id => cases hwrite

/-- Told to refuse updates, it refuses every change of somebody stored. -/
theorem refusesChange {id : SubscriptionId} (h : .update ∈ r.refused)
    (hstored : (SubscriptionStore.get? r id).isSome = true) (f : Subscription → Subscription) :
    RefusesChange r id f "update refused" := by
  obtain ⟨s, hget⟩ := Option.isSome_iff_exists.mp hstored
  refine ⟨s, hget, ?_⟩
  simp only [SubscriptionStore.update, permit_refused h]
  rfl

/-- What is not to be refused is not: the store within never refuses to write. -/
theorem not_refused (hop : op.write? = some w) (h : ¬ w ∈ r.refused) (message : String) :
    ¬ op.Refused r message := by
  intro hrefused
  have hanswer : (op.apply r.inner).1 = .refused (.backend message) :=
    congrArg Prod.fst ((apply_allowed hop h).symm.trans hrefused)
  have hwrites := r.inner.isRefusal_apply op
  rw [hanswer] at hwrites
  cases hwrites

theorem update_ne_refused (h : ¬ .update ∈ r.refused) (s : Subscription) (message : String) :
    SubscriptionStore.update r s ≠ .error (.backend message) :=
  fun hupdate => not_refused rfl h message (StoreOp.refused_update.mpr hupdate)

theorem remove_ne_refused (h : ¬ .remove ∈ r.refused) (id : SubscriptionId) (message : String) :
    SubscriptionStore.remove r id ≠ .error (.backend message) :=
  fun hremove => not_refused rfl h message (StoreOp.refused_remove.mpr hremove)

theorem willing : Willing fun r m => r = RefusingStore.mk m [] where
  update h := h ▸ update_ne_refused List.not_mem_nil
  remove h := h ▸ remove_ne_refused List.not_mem_nil

end RefusingStore
end TransitPush
