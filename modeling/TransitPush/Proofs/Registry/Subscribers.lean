import TransitPush.Proofs.Registry.Lifecycle
import TransitPush.Proofs.Text.Joined
/-!
# Who replaces whom

A subscriber by envelope is known by two references, and the registry finds its earlier subscription by
the one name that they are joined to. Two pairs may be joined to the same name, as the references may
have dashes themselves. So what is replaced is the subscription that was last saved for a pair of the
same joined name, which need not be the same pair.

* `reservedName_inj`: requestors with equally many dashes are told apart.
* `lastSubscriber?`: the pair for which a subscription was last saved, read from the log of saves.
* `Courier.traces_manageAll`: a stored subscription has the reserved name of that pair, or none.
* `Courier.subscribe_replaces`: who is replaced; `Courier.subscribe_replaces_another_pair`: a pair that
  replaces the subscription of another.
-/
namespace TransitPush

/-! ## Joined names -/

/-- Pairs are told apart by their names if the requestors have equally many dashes. -/
theorem reservedName_inj {q q' k k' : String} (hcount : q.toList.count '-' = q'.toList.count '-') :
    reservedName q k = reservedName q' k' ↔ q = q' ∧ k = k' := by
  constructor
  · intro h
    have hchars := congrArg String.toList h
    simp only [reservedName, String.toList_append, List.append_assoc, List.append_cancel_left_eq]
      at hchars
    obtain ⟨hq, hk⟩ := eq_of_append_mark hcount hchars
    exact ⟨String.toList_inj.mp hq, String.toList_inj.mp hk⟩
  · rintro ⟨rfl, rfl⟩
    rfl

/-! ## The log of saves -/

/-- The subscriber by envelope for whom a subscription was last saved. -/
def lastSubscriber? (log : List Save) (id : SubscriptionId) : Option (String × String) :=
  (log.reverse.find? fun v => v.id = id).bind Save.subscriber

theorem lastSubscriber?_append_singleton {log : List Save} {v : Save} {id : SubscriptionId} :
    lastSubscriber? (log ++ [v]) id = if v.id = id then v.subscriber else lastSubscriber? log id := by
  unfold lastSubscriber?
  rw [List.reverse_append, List.reverse_singleton, List.singleton_append, List.find?_cons]
  by_cases hid : v.id = id <;> simp [hid]

/-- The names in a registry are those that a log of saves says: a reserved one joined of the pair for
which the subscription was last saved, or one that is not reserved. -/
structure Registry.Traces (log : List Save) (r : Registry MemoryStore) : Prop where
  named : ∀ id s q k, r.store.subscriptions.get? id = some s → lastSubscriber? log id = some (q, k) →
    s.name = reservedName q k
  unnamed : ∀ id s, r.store.subscriptions.get? id = some s → lastSubscriber? log id = none →
    s.hasReservedName = false

namespace Registry.Traces

variable {r r' : Registry MemoryStore} {log : List Save} {s t u : Subscription} {id : SubscriptionId}

theorem empty (hstore : r.store = .empty) : r.Traces [] := by
  have hnone := unstored_of_empty hstore
  exact ⟨fun id s _ _ hget => absurd hget (hnone id s), fun id s hget => absurd hget (hnone id s)⟩

theorem inherit (h : r.Traces log) (hi : Inherits r r') : r'.Traces log := by
  constructor
  · intro id s q k hget hlast
    obtain ⟨before, _, hbefore, rfl⟩ := hi.stored id s hget
    exact h.named id before q k hbefore hlast
  · intro id s hget hlast
    obtain ⟨before, _, hbefore, rfl⟩ := hi.stored id s hget
    exact h.unnamed id before hbefore hlast

/-- A save goes into the log with the pair that gives the name, or with none if it is not reserved. -/
theorem saved (h : r.Traces log) (hs : Saved r s t r') {pair : Option (String × String)}
    (hnamed : ∀ q k, pair = some (q, k) → t.name = reservedName q k)
    (hunnamed : pair = none → t.hasReservedName = false) : r'.Traces (log ++ [⟨t.id, pair⟩]) := by
  have hlast : ∀ {id}, lastSubscriber? (log ++ [⟨t.id, pair⟩]) id =
      if t.id = id then pair else lastSubscriber? log id := lastSubscriber?_append_singleton
  constructor
  · intro id u q k hget hpair
    rw [hlast] at hpair
    rcases hs.saved_or_old hget with ⟨rfl, rfl⟩ | ⟨hid, hold⟩
    · rw [if_pos rfl] at hpair
      exact hnamed q k hpair
    · rw [if_neg (Ne.symm hid)] at hpair
      exact h.named id u q k hold hpair
  · intro id u hget hpair
    rw [hlast] at hpair
    rcases hs.saved_or_old hget with ⟨rfl, rfl⟩ | ⟨hid, hold⟩
    · rw [if_pos rfl] at hpair
      exact hunnamed hpair
    · rw [if_neg (Ne.symm hid)] at hpair
      exact h.unnamed id u hold hpair

/-- Whether a stored subscription has a reserved name is read from the log. -/
theorem name_iff (h : r.Traces log) {requestor client : String}
    (hget : r.store.subscriptions.get? id = some u) : u.name = reservedName requestor client ↔
      ∃ q k, lastSubscriber? log id = some (q, k) ∧
        reservedName q k = reservedName requestor client := by
  constructor
  · intro hname
    cases hlast : lastSubscriber? log id with
    | none =>
      have hnot := h.unnamed id u hget hlast
      rw [Subscription.hasReservedName_reservedName hname] at hnot
      cases hnot
    | some pair => exact ⟨pair.1, pair.2, rfl, (h.named id u _ _ hget hlast).symm.trans hname⟩
  · rintro ⟨q, k, hlast, hsame⟩
    exact (h.named id u q k hget hlast).trans hsame

end Registry.Traces

/-- A subscriber by envelope saves over the one stored under its name and over nobody else. -/
theorem Registry.Lawful.id_eq_iff {r r' : Registry MemoryStore} (h : r.Lawful)
    {s t u : Subscription} {id : SubscriptionId} {requestor client : String}
    (hs : Saved r (s.envelopedAs (r.idOf (reservedName requestor client)) requestor client).normalized
      t r') (hget : r.store.subscriptions.get? id = some u) :
    t.id = id ↔ u.name = reservedName requestor client := by
  constructor
  · intro hid
    rw [← hid] at hget
    cases hs with
    | added _ =>
      rw [show r.store.subscriptions.get? _ = none from h.unused] at hget
      cases hget
    | replaced _ _ => exact h.name_of_idOf hget
  · intro hname
    exact (h.id_of_saved hs hget hname).symm

/-! ## Runs -/

namespace Courier

def saves {σ τ : Type} [SubscriptionStore σ] (c : Courier σ τ) : List RegistryOp → List Save
  | [] => []
  | op :: ops => (c.saveOf op).toList ++ (c.manage op).saves ops

variable {τ : Type} {c : Courier MemoryStore τ} {log : List Save}

theorem traces_manage (h : c.registry.Lawful) (ht : c.registry.Traces log) (op : RegistryOp) :
    (c.manage op).registry.Traces (log ++ (c.saveOf op).toList) := by
  rcases manage_cases h.consistent op with ⟨s, t, hput, hsave⟩ | ⟨s, t, hsub, hsave⟩ |
    ⟨hinherits, hsave⟩
  · obtain ⟨hcheck, hs⟩ := Registry.put_eq_ok.mp hput
    obtain ⟨-, -, -, hfree⟩ := Subscription.of_check_ok hcheck
    obtain ⟨id, rfl⟩ := hs.eq_saved
    rw [hsave]
    exact ht.saved hs (fun q k hpair => nomatch hpair) fun _ => hfree rfl
  · obtain ⟨requestor, client, href, -, hs⟩ := Registry.subscribe_eq_ok.mp hsub
    obtain ⟨id, rfl⟩ := hs.eq_saved
    rw [hsave, href]
    refine ht.saved hs (fun q k hpair => ?_) fun hpair => nomatch hpair
    cases hpair
    exact Registry.Lawful.name_envelopedAs href
  · rw [hsave, Option.toList_none, List.append_nil]
    exact ht.inherit hinherits

theorem traces_manageAll (h : c.registry.Lawful) (ht : c.registry.Traces log)
    (ops : List RegistryOp) : (c.manageAll ops).registry.Traces (log ++ c.saves ops) := by
  induction ops generalizing c log with
  | nil =>
    rw [saves, List.append_nil]
    exact ht
  | cons op ops ih =>
    have hstep := ih (lawful_manage h op) (traces_manage h ht op)
    rwa [List.append_assoc] at hstep

/-! ## Replacing -/

/-- **Who is replaced.** After any run from an empty store, a subscriber by envelope who succeeds is
stored, and everybody else stays as they are. It takes the place of a stored subscription exactly if
that was last saved for a subscriber by envelope whose two references are joined to the same name. As
long as the requestors have equally many dashes, that is the same pair. -/
theorem subscribe_replaces (hstore : c.registry.store = .empty) (hids : c.registry.ids.Proper)
    (ops : List RegistryOp) {s t : Subscription} {r' : Registry MemoryStore}
    {requestor client : String} (href : s.references? = some (requestor, client))
    (hsub : (c.manageAll ops).registry.subscribe s = .ok (t, r')) :
    (∀ id, SubscriptionStore.get? r'.store id =
      if id = t.id then some t else
        SubscriptionStore.get? (c.manageAll ops).registry.store id) ∧
    (∀ id u, SubscriptionStore.get? (c.manageAll ops).registry.store id = some u →
      (t.id = id ↔ ∃ q k, lastSubscriber? (c.saves ops) id = some (q, k) ∧
        reservedName q k = reservedName requestor client)) ∧
    ∀ id u, SubscriptionStore.get? (c.manageAll ops).registry.store id = some u →
      ∀ q k, lastSubscriber? (c.saves ops) id = some (q, k) →
        q.toList.count '-' = requestor.toList.count '-' →
        (t.id = id ↔ (q, k) = (requestor, client)) := by
  have hempty := Registry.Lawful.empty hstore hids
  have h := lawful_manageAll hempty ops
  have ht : (c.manageAll ops).registry.Traces (c.saves ops) :=
    traces_manageAll hempty (.empty hstore) ops
  obtain ⟨requestor', client', href', -, hs⟩ := Registry.subscribe_eq_ok.mp hsub
  rw [href] at href'
  cases href'
  have hreplaced : ∀ id u, SubscriptionStore.get? (c.manageAll ops).registry.store id = some u →
      (t.id = id ↔ ∃ q k, lastSubscriber? (c.saves ops) id = some (q, k) ∧
        reservedName q k = reservedName requestor client) := by
    intro id u hget
    rw [h.id_eq_iff hs hget, ht.name_iff hget]
  refine ⟨hs.get?, hreplaced, ?_⟩
  intro id u hget q k hlast hcount
  rw [hreplaced id u hget, Prod.mk.injEq, ← reservedName_inj hcount]
  constructor
  · rintro ⟨q', k', hlast', hsame⟩
    rw [hlast] at hlast'
    cases hlast'
    exact hsame
  · intro hsame
    exact ⟨q, k, hlast, hsame⟩

/-- The earlier subscription was renamed and is nobody's by envelope any more, the later one is
replaced. -/
theorem subscribe_replaces_renamed :
    let last := (idle.manageAll renamedRun).registry
    spacedOut.references? = some ("dash", "42") ∧
    idle.saves renamedRun =
      [⟨"i", some ("dash", "42")⟩, ⟨"i", none⟩, ⟨"ii", some ("dash", "42")⟩, ⟨"iii", none⟩] ∧
    ∃ t r', last.subscribe spacedOut = .ok (t, r') ∧ t.id = "ii" ∧
      SubscriptionStore.get? r'.store "i" = SubscriptionStore.get? last.store "i" := by
  intro last
  have href : spacedOut.references? = some ("dash", "42") := by decide
  have hsaves : idle.saves renamedRun =
      [⟨"i", some ("dash", "42")⟩, ⟨"i", none⟩, ⟨"ii", some ("dash", "42")⟩, ⟨"iii", none⟩] := by
    decide
  have hok : (last.subscribe spacedOut).isOk = true := by decide
  have hstored : (SubscriptionStore.get? last.store "ii").isSome = true := by decide
  obtain ⟨u, hget⟩ := Option.isSome_iff_exists.mp hstored
  cases hsub : last.subscribe spacedOut with
  | error e =>
    rw [hsub] at hok
    cases hok
  | ok saved =>
    obtain ⟨hframe, hreplaced, -⟩ :=
      subscribe_replaces (c := idle) rfl Supply.tally_proper renamedRun href hsub
    have hid : saved.1.id = "ii" :=
      (hreplaced "ii" u hget).mpr ⟨"dash", "42", by rw [hsaves]; decide, rfl⟩
    refine ⟨href, hsaves, saved.1, saved.2, rfl, hid, ?_⟩
    rw [hframe, if_neg (by rw [hid]; decide)]

def byEnvelope (requestor client address : String) : Subscription :=
  { (Subscription.pushing "" address).withCodespace "NSB" with
    requestor := some requestor, clientRef := some client }

/-- Two pairs are joined to one name, and the second replaces the subscription of the first. -/
theorem subscribe_replaces_another_pair :
    let first := byEnvelope "a-b" "c" "http://a"
    let second := byEnvelope "a" "b-c" "http://b"
    let last := (idle.manageAll [.subscribe first]).registry
    first.references? = some ("a-b", "c") ∧ second.references? = some ("a", "b-c") ∧
    (last.subscribe second).map (fun saved =>
      (saved.1.id, (SubscriptionStore.list saved.2.store).map Subscription.address)) =
        .ok ("i", ["http://b"]) ∧
    ¬ ∀ t r', last.subscribe second = .ok (t, r') →
      ∀ id u, SubscriptionStore.get? last.store id = some u →
        (t.id = id ↔ lastSubscriber? (idle.saves [.subscribe first]) id = some ("a", "b-c")) := by
  intro first second last
  have hanswer : (last.subscribe second).map (fun saved =>
      (saved.1.id, (SubscriptionStore.list saved.2.store).map Subscription.address)) =
        .ok ("i", ["http://b"]) := by decide
  refine ⟨by decide, by decide, hanswer, fun hown => ?_⟩
  cases hsub : last.subscribe second with
  | error e =>
    rw [hsub] at hanswer
    cases hanswer
  | ok saved =>
    rw [hsub] at hanswer
    have hid : saved.1.id = "i" := congrArg Prod.fst (Except.ok.inj hanswer)
    have hstored : (SubscriptionStore.get? last.store "i").isSome = true := by decide
    obtain ⟨u, hget⟩ := Option.isSome_iff_exists.mp hstored
    have hpair := (hown saved.1 saved.2 hsub "i" u hget).mp hid
    exact absurd hpair (by decide)

end Courier
end TransitPush
