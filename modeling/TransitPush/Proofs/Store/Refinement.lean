import TransitPush.Proofs.Store.Index
import TransitPush.Proofs.Store.Run
/-!
# The indexed store and the plain one

A plain store holds subscriptions by identifier and nothing else; it answers every query by looking
at all of them. The store in memory, which answers from three indexes, cannot be told from it.

* `MemoryStore.Consistent`: subscriptions lie under their own identifiers, and each index is in step
  with them. Every operation keeps it (`Consistent.apply`), and so does every run
  (`Consistent.run`).
* `MemoryStore.Consistent.unique`, `reload_eq`: the indexes follow from the subscriptions.
* `Consistent.sameAnswers`: a consistent store answers as its subscriptions do.
* `run_refines_plain`: all of this over every run.
-/
namespace TransitPush

structure PlainStore where
  subscriptions : Table Subscription
deriving DecidableEq

namespace PlainStore

def empty : PlainStore := ⟨∅⟩

def scan (p : PlainStore) (test : Subscription → Bool) : List Subscription :=
  p.subscriptions.values.filter test

def put (p : PlainStore) (id : SubscriptionId) (s : Subscription) : PlainStore :=
  ⟨p.subscriptions.insert id { s with id }⟩

instance : SubscriptionStore PlainStore where
  add p id s := .ok ({ s with id }, p.put id s)
  update p s :=
    match p.subscriptions.get? s.id with
    | some _ => .ok (p.put s.id s)
    | none => .error (.notFound s.id)
  modify p id f :=
    match p.subscriptions.get? id with
    | some s => .ok (some { f s with id }, p.put id (f s))
    | none => .ok (none, p)
  remove p id := .ok (p.subscriptions.get? id, ⟨p.subscriptions.erase id⟩)
  get? p := p.subscriptions.get?
  list p := p.subscriptions.values
  byStop p key := p.scan fun s => key ∈ s.fromStops ∨ key ∈ s.toStops
  byLine p key := p.scan fun s => key ∈ s.lineRefs
  byCodespace p key := p.scan fun s => key ∈ s.codespaces

end PlainStore

/-- Two stores answer every query alike. -/
structure SameAnswers {σ τ : Type} [SubscriptionStore σ] [SubscriptionStore τ] (a : σ) (b : τ) :
    Prop where
  get? : ∀ id, SubscriptionStore.get? a id = SubscriptionStore.get? b id
  list : SubscriptionStore.list a = SubscriptionStore.list b
  size : SubscriptionStore.size a = SubscriptionStore.size b
  byName? : ∀ name, SubscriptionStore.byName? a name = SubscriptionStore.byName? b name
  byStop : ∀ key, SubscriptionStore.byStop a key = SubscriptionStore.byStop b key
  byLine : ∀ key, SubscriptionStore.byLine a key = SubscriptionStore.byLine b key
  byCodespace : ∀ key, SubscriptionStore.byCodespace a key = SubscriptionStore.byCodespace b key

namespace Subscription

theorem mem_stops {s : Subscription} {key : String} :
    key ∈ s.stops ↔ key ∈ s.fromStops ∨ key ∈ s.toStops :=
  List.mem_append

end Subscription

namespace MemoryStore

variable {m : MemoryStore}

def plain (m : MemoryStore) : PlainStore := ⟨m.subscriptions⟩

/-- Subscriptions lie under their own identifiers, and the indexes are in step with them. -/
structure Consistent (m : MemoryStore) : Prop where
  own : OwnIds m.subscriptions
  stops : m.byStop.Lists Subscription.stops m.subscriptions
  lines : m.byLine.Lists (fun s => s.lineRefs.toList) m.subscriptions
  codespaces : m.byCodespace.Lists (fun s => s.codespaces.toList) m.subscriptions

namespace Consistent

theorem empty : Consistent .empty where
  own id s hget := by cases hget
  stops := .empty
  lines := .empty
  codespaces := .empty

/-! ## One operation -/

theorem add (h : m.Consistent) {id : SubscriptionId} {s : Subscription}
    (hfresh : m.subscriptions.get? id = none) : (m.add id s).2.Consistent where
  own := h.own.insert { s with id }
  stops := h.stops.enter hfresh
  lines := h.lines.enter hfresh
  codespaces := h.codespaces.enter hfresh

theorem replace (h : m.Consistent) {before after : Subscription}
    (hget : m.subscriptions.get? after.id = some before) : (m.replace before after).Consistent := by
  have hid : before.id = after.id := h.own _ _ hget
  refine ⟨h.own.insert after, ?_, ?_, ?_⟩ <;>
    simp only [MemoryStore.replace, MemoryStore.unindex, MemoryStore.index, MemoryStore.put, hid]
  · exact h.stops.replace hget
  · exact h.lines.replace hget
  · exact h.codespaces.replace hget

theorem remove (h : m.Consistent) (id : SubscriptionId) : (m.remove id).2.Consistent := by
  unfold MemoryStore.remove
  cases hget : m.subscriptions.get? id with
  | none => exact h
  | some s =>
    have hid : s.id = id := h.own id s hget
    subst hid
    exact ⟨h.own.erase s.id, h.stops.leave hget, h.lines.leave hget, h.codespaces.leave hget⟩

/-- Two consistent stores with the same subscriptions have the same indexes. -/
theorem unique {n : MemoryStore} (hm : m.Consistent) (hn : n.Consistent)
    (hsubs : m.subscriptions = n.subscriptions) : m = n := by
  obtain ⟨subs, stops, lines, codespaces⟩ := m
  obtain ⟨subs', stops', lines', codespaces'⟩ := n
  dsimp only at hsubs
  subst hsubs
  obtain rfl : stops = stops' := hm.stops.unique hn.stops
  obtain rfl : lines = lines' := hm.lines.unique hn.lines
  obtain rfl : codespaces = codespaces' := hm.codespaces.unique hn.codespaces
  rfl

end Consistent

/-- Entering subscriptions one after the other works on each index for itself. -/
theorem foldl_index (ss : List Subscription) (m : MemoryStore) :
    ss.foldl index m = ⟨m.subscriptions,
      ss.foldl (fun ix s => s.stops.foldl (Index.add s.id) ix) m.byStop,
      ss.foldl (fun ix s => s.lineRefs.toList.foldl (Index.add s.id) ix) m.byLine,
      ss.foldl (fun ix s => s.codespaces.toList.foldl (Index.add s.id) ix) m.byCodespace⟩ := by
  induction ss generalizing m with
  | nil => rfl
  | cons s rest ih => exact ih (m.index s)

namespace Consistent

/-- A store whose indexes are in step is made anew as it is. -/
theorem reload_eq (h : m.Consistent) : m.reload = m := by
  rw [MemoryStore.reload, foldl_index]
  refine unique ?_ h rfl
  exact ⟨h.own, .rebuild h.own, .rebuild h.own, .rebuild h.own⟩

theorem apply (h : m.Consistent) (op : StoreOp) (hfresh : op.FreshFor m) :
    (op.apply m).2.Consistent := by
  cases op with
  | add id s => exact h.add hfresh
  | update s =>
    simp only [StoreOp.apply, SubscriptionStore.update, MemoryStore.update]
    cases hget : m.subscriptions.get? s.id with
    | none => exact h
    | some before => exact h.replace hget
  | modify id f =>
    simp only [StoreOp.apply, SubscriptionStore.modify, MemoryStore.modify]
    cases hget : m.subscriptions.get? id with
    | none => exact h
    | some before =>
      refine h.replace ?_
      show m.subscriptions.get? before.id = some before
      rw [h.own id before hget, hget]
  | remove id => exact h.remove id
  | reload =>
    show m.reload.Consistent
    rwa [h.reload_eq]

/-- An operation answers, and changes the subscriptions, as it does in the plain store. -/
theorem apply_plain (h : m.Consistent) (op : StoreOp) :
    op.apply m.plain = ((op.apply m).1, (op.apply m).2.plain) := by
  cases op with
  | add id s => rfl
  | update s =>
    simp only [StoreOp.apply, SubscriptionStore.update, MemoryStore.update, plain]
    cases m.subscriptions.get? s.id <;> rfl
  | modify id f =>
    simp only [StoreOp.apply, SubscriptionStore.modify, MemoryStore.modify, plain]
    cases hget : m.subscriptions.get? id with
    | none => rfl
    | some before =>
      obtain rfl : before.id = id := h.own id before hget
      rfl
  | remove id =>
    simp only [StoreOp.apply, SubscriptionStore.remove, MemoryStore.remove, plain]
    cases hget : m.subscriptions.get? id with
    | none =>
      rw [Table.erase_absent hget]
    | some before => rfl
  | reload =>
    show (StoreAnswer.done, m.plain) = (StoreAnswer.done, m.reload.plain)
    rw [h.reload_eq]

/-- An operation changes no subscription but the one it is about. -/
theorem apply_frame (h : m.Consistent) (op : StoreOp) {id : SubscriptionId}
    (hop : op.subject ≠ some id) :
    SubscriptionStore.get? (op.apply m).2 id = SubscriptionStore.get? m id := by
  cases op with
  | add i s =>
    have hne : id ≠ i := fun he => hop (congrArg some he.symm)
    exact (Table.get?_insert _ i id _).trans (if_neg hne)
  | update s =>
    have hne : id ≠ s.id := fun he => hop (congrArg some he.symm)
    simp only [StoreOp.apply, SubscriptionStore.update, MemoryStore.update]
    cases m.subscriptions.get? s.id with
    | none => rfl
    | some before => exact (Table.get?_insert _ s.id id _).trans (if_neg hne)
  | modify i f =>
    have hne : id ≠ i := fun he => hop (congrArg some he.symm)
    simp only [StoreOp.apply, SubscriptionStore.modify, MemoryStore.modify]
    cases hget : m.subscriptions.get? i with
    | none => rfl
    | some before =>
      obtain rfl : before.id = i := h.own i before hget
      exact (Table.get?_insert _ before.id id _).trans (if_neg hne)
  | remove i =>
    have hne : id ≠ i := fun he => hop (congrArg some he.symm)
    simp only [StoreOp.apply, SubscriptionStore.remove, MemoryStore.remove]
    cases m.subscriptions.get? i with
    | none => rfl
    | some before => exact (Table.get?_erase _ i id).trans (if_neg hne)
  | reload =>
    show m.reload.subscriptions.get? id = m.subscriptions.get? id
    rw [h.reload_eq]

/-- Only an addition puts a subscription under an identifier that is not in use. -/
theorem apply_unused (h : m.Consistent) (op : StoreOp) {id : SubscriptionId}
    (hadd : ∀ s, op ≠ .add id s) (hnone : m.subscriptions.get? id = none) :
    (op.apply m).2.subscriptions.get? id = none := by
  by_cases hop : op.subject = some id
  · cases op with
    | add i s =>
      cases hop
      exact absurd rfl (hadd s)
    | update s =>
      cases hop
      simp only [StoreOp.apply, SubscriptionStore.update, MemoryStore.update, hnone]
    | modify i f =>
      cases hop
      simp only [StoreOp.apply, SubscriptionStore.modify, MemoryStore.modify, hnone]
    | remove i =>
      cases hop
      simp only [StoreOp.apply, SubscriptionStore.remove, MemoryStore.remove, hnone]
    | reload => cases hop
  · exact (h.apply_frame op hop).trans hnone

/-! ## Runs -/

theorem run (h : m.Consistent) (ops : List StoreOp) (hfresh : StoreOp.Fresh m ops) :
    (StoreOp.run m ops).Consistent := by
  induction ops generalizing m with
  | nil => exact h
  | cons op ops ih => exact ih (h.apply op hfresh.1) hfresh.2

/-- What all identifiers in use and all that a run adds under have in common, those in use after the
run have too. -/
theorem run_ids (h : m.Consistent) {P : SubscriptionId → Prop} (ops : List StoreOp)
    (hfresh : StoreOp.Fresh m ops) (hadd : ∀ id s, .add id s ∈ ops → P id)
    (hP : ∀ id s, m.subscriptions.get? id = some s → P id) :
    ∀ id s, (StoreOp.run m ops).subscriptions.get? id = some s → P id := by
  induction ops generalizing m with
  | nil => exact hP
  | cons op ops ih =>
    refine ih (h.apply op hfresh.1) hfresh.2
      (fun id s hmem => hadd id s (List.mem_cons_of_mem _ hmem)) fun id s hget => ?_
    cases hused : m.subscriptions.get? id with
    | some t => exact hP id t hused
    | none =>
      by_cases hop : ∃ t, op = .add id t
      · obtain ⟨t, rfl⟩ := hop
        exact hadd id t List.mem_cons_self
      · rw [h.apply_unused op (fun t ht => hop ⟨t, ht⟩) hused] at hget
        cases hget

theorem run_plain (h : m.Consistent) (ops : List StoreOp) (hfresh : StoreOp.Fresh m ops) :
    StoreOp.run m.plain ops = (StoreOp.run m ops).plain ∧
      StoreOp.answers m.plain ops = StoreOp.answers m ops := by
  induction ops generalizing m with
  | nil => exact ⟨rfl, rfl⟩
  | cons op ops ih =>
    obtain ⟨hrun, hans⟩ := ih (h.apply op hfresh.1) hfresh.2
    rw [StoreOp.run, StoreOp.answers, h.apply_plain op]
    exact ⟨hrun, congrArg _ hans⟩

end Consistent

/-! ## Queries -/

/-- The list holds each stored subscription that passes a test once, and nothing else. -/
structure Exactly {σ : Type} [SubscriptionStore σ] (store : σ) (test : Subscription → Prop)
    (found : List Subscription) : Prop where
  once : (found.map Subscription.id).Nodup
  mem : ∀ s, s ∈ found ↔ SubscriptionStore.get? store s.id = some s ∧ test s

namespace Consistent

theorem exactly_filter (h : m.Consistent) (test : Subscription → Bool) :
    Exactly m (fun s => test s = true) (m.subscriptions.values.filter test) where
  once := by
    have hkeys := m.subscriptions.keys_nodup
    rw [← h.own.map_id_values] at hkeys
    exact hkeys.sublist (List.filter_sublist.map _)
  mem s := by
    rw [List.mem_filter, h.own.mem_values]
    exact Iff.rfl

theorem byStop_eq (h : m.Consistent) (key : String) :
    SubscriptionStore.byStop m key = m.subscriptions.values.filter fun s => key ∈ s.stops :=
  h.stops.lookup key

theorem byLine_eq (h : m.Consistent) (key : String) :
    SubscriptionStore.byLine m key = m.subscriptions.values.filter fun s => key ∈ s.lineRefs :=
  h.lines.lookup key

theorem byCodespace_eq (h : m.Consistent) (key : String) :
    SubscriptionStore.byCodespace m key =
      m.subscriptions.values.filter fun s => key ∈ s.codespaces :=
  h.codespaces.lookup key

theorem exactly_byStop (h : m.Consistent) (key : String) :
    Exactly m (fun s => key ∈ s.fromStops ∨ key ∈ s.toStops) (SubscriptionStore.byStop m key) := by
  rw [h.byStop_eq]
  simpa only [decide_eq_true_eq, Subscription.mem_stops] using
    h.exactly_filter fun s => key ∈ s.stops

theorem exactly_byLine (h : m.Consistent) (key : String) :
    Exactly m (fun s => key ∈ s.lineRefs) (SubscriptionStore.byLine m key) := by
  rw [h.byLine_eq]
  simpa only [decide_eq_true_eq] using h.exactly_filter fun s => key ∈ s.lineRefs

theorem exactly_byCodespace (h : m.Consistent) (key : String) :
    Exactly m (fun s => key ∈ s.codespaces) (SubscriptionStore.byCodespace m key) := by
  rw [h.byCodespace_eq]
  simpa only [decide_eq_true_eq] using h.exactly_filter fun s => key ∈ s.codespaces

/-- A consistent store answers as its subscriptions do. -/
theorem sameAnswers (h : m.Consistent) : SameAnswers m m.plain where
  get? _ := rfl
  list := rfl
  size := (List.length_map _).symm
  byName? _ := rfl
  byStop key := by
    rw [h.byStop_eq]
    exact List.filter_congr fun s _ => decide_eq_decide.mpr Subscription.mem_stops
  byLine := h.byLine_eq
  byCodespace := h.byCodespace_eq

/-- No index keeps an empty set or the identifier of a subscription that is not stored. -/
theorem indexed (h : m.Consistent) :
    ∀ ix ∈ [m.byStop, m.byLine, m.byCodespace], ∀ key ids, ix.get? key = some ids →
      ids.isEmpty = false ∧ ∀ id ∈ ids, (SubscriptionStore.get? m id).isSome = true := by
  have hlists : ∀ {ix : Index} {keys}, ix.Lists keys m.subscriptions → ∀ key ids,
      ix.get? key = some ids →
        ids.isEmpty = false ∧ ∀ id ∈ ids, (SubscriptionStore.get? m id).isSome = true := by
    intro ix keys hl key ids hget
    refine ⟨hl.tidy key ids hget, fun id hid => ?_⟩
    obtain ⟨s, hs, -⟩ := (hl.mem key id).mp (Index.mem_ids.mpr ⟨ids, hget, hid⟩)
    exact Option.isSome_iff_exists.mpr ⟨s, hs⟩
  intro ix hix
  simp only [List.mem_cons, List.not_mem_nil, or_false] at hix
  rcases hix with rfl | rfl | rfl
  · exact hlists h.stops
  · exact hlists h.lines
  · exact hlists h.codespaces

end Consistent
/-- **Refinement.** Over every run from the empty store that adds under identifiers not in use, the
store in memory answers each operation and then each query as the plain store does. The queries by
stop, line and codespace give each stored subscription that has the key once and nothing else,
subscriptions lie under their own identifiers, no index keeps an empty set or a removed identifier,
making the indexes anew leaves the store as it is, and the next operation changes no subscription but
the one it is about. -/
theorem run_refines_plain (ops : List StoreOp) (hfresh : StoreOp.Fresh MemoryStore.empty ops) :
    let m := StoreOp.run MemoryStore.empty ops
    StoreOp.answers MemoryStore.empty ops = StoreOp.answers PlainStore.empty ops ∧
    SameAnswers m (StoreOp.run PlainStore.empty ops) ∧
    (∀ key, Exactly m (fun s => key ∈ s.fromStops ∨ key ∈ s.toStops)
      (SubscriptionStore.byStop m key)) ∧
    (∀ key, Exactly m (fun s => key ∈ s.lineRefs) (SubscriptionStore.byLine m key)) ∧
    (∀ key, Exactly m (fun s => key ∈ s.codespaces) (SubscriptionStore.byCodespace m key)) ∧
    (∀ id s, SubscriptionStore.get? m id = some s → s.id = id) ∧
    (∀ ix ∈ [m.byStop, m.byLine, m.byCodespace], ∀ key ids, ix.get? key = some ids →
      ids.isEmpty = false ∧ ∀ id ∈ ids, (SubscriptionStore.get? m id).isSome = true) ∧
    SubscriptionStore.reload m = m ∧
    ∀ (op : StoreOp) id, op.subject ≠ some id →
      SubscriptionStore.get? (op.apply m).2 id = SubscriptionStore.get? m id := by
  intro m
  have h : m.Consistent := Consistent.empty.run ops hfresh
  obtain ⟨hrun, hans⟩ := Consistent.empty.run_plain ops hfresh
  have hplain : StoreOp.run PlainStore.empty ops = m.plain := hrun
  refine ⟨hans.symm, ?_, h.exactly_byStop, h.exactly_byLine, h.exactly_byCodespace, h.own,
    h.indexed, h.reload_eq, fun op id => h.apply_frame op⟩
  rw [hplain]
  exact h.sameAnswers

/-- Two subscriptions with stops and a line in common. The first swaps its stops, gives up the line
for a codespace and tries to take another identifier; the second goes and one like it comes back. -/
def crossingRun : List StoreOp :=
  let there := ((Subscription.pushing "there" "http://a").withStops "x" "y").withLine "1"
  let back := ((Subscription.pushing "back" "http://b").withStops "y" "x").withLine "1"
  [.add "a" there, .add "b" back,
    .modify "a" fun s =>
      { s with id := "b", fromStops := s.toStops, toStops := s.fromStops, lineRefs := ∅ }.withCodespace
        "NSB",
    .remove "b", .add "c" (back.withStops "y" "z"), .update { back with id := "b" }, .reload]

theorem run_refines_plain_crossing :
    StoreOp.Fresh MemoryStore.empty crossingRun ∧
    (SubscriptionStore.byStop (StoreOp.run MemoryStore.empty crossingRun) "x").map Subscription.id =
      ["a", "c"] ∧
    (SubscriptionStore.byLine (StoreOp.run MemoryStore.empty crossingRun) "1").map Subscription.id =
      ["c"] := by
  have hfresh : StoreOp.Fresh MemoryStore.empty crossingRun := by decide
  obtain ⟨-, hsame, -⟩ := run_refines_plain crossingRun hfresh
  refine ⟨hfresh, ?_, ?_⟩
  · rw [hsame.byStop]
    decide
  · rw [hsame.byLine]
    decide

end MemoryStore
end TransitPush
