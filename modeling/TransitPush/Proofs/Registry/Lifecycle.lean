import TransitPush.Proofs.Delivery.CourierRun
import TransitPush.Proofs.Registry.Saving
/-!
# The life of subscriptions

Subscriptions are put and subscribed, updated and removed, pushes to them are answered and sweeps are
made, in any order and with any arguments. Whatever came before, what is stored is fit to be stored.

* `Courier.manage`, `Courier.manageAll`: the operations on the registry, and runs of them;
  `Courier.saveOf` says what an operation saves.
* `Courier.manage_cases`: an operation saves a subscription or everybody stored was stored before.
* `Courier.lawful_manageAll`: so what holds of all stored subscriptions holds after a run.
* `Registry.Lawful.subscribe_again`: who subscribes again as before changes nothing.
* `Courier.lifecycle_invariant`: all of it, for every run from an empty store.
-/
namespace TransitPush

namespace Registry.Lawful

variable {r r' : Registry MemoryStore} {s t : Subscription}

/-- Listed subscriptions of one reserved name are one subscription. -/
theorem eq_of_name (h : r.Lawful) (hs : s ∈ SubscriptionStore.list r.store)
    (ht : t ∈ SubscriptionStore.list r.store) (hname : s.hasReservedName = true)
    (hsame : t.name = s.name) : t = s := by
  have hgets := h.consistent.own.mem_values.mp hs
  have hgett := h.consistent.own.mem_values.mp ht
  have hid : t.id = s.id := h.once s.id s t.id t hgets hgett hname hsame
  rw [hid, hgets] at hgett
  exact (Option.some.inj hgett).symm

/-- Who subscribes again as before gets the same subscription, and nothing changes. -/
theorem subscribe_again (h : r.Lawful) (hsub : r.subscribe s = .ok (t, r')) :
    r'.subscribe s = .ok (t, r') := by
  obtain ⟨requestor, client, href, hcheck, hs⟩ := subscribe_eq_ok.mp hsub
  have h' : r'.Lawful := h.subscribe hsub
  obtain ⟨id, ht⟩ := hs.eq_saved
  have hname : t.name = reservedName requestor client := by
    rw [ht]
    exact name_envelopedAs href
  have hget : r'.store.subscriptions.get? t.id = some t := by
    rw [hs.get?, if_pos rfl]
  -- the second time the name leads to what the first one saved, which is saved over itself
  have hfound : r'.idOf (reservedName requestor client) = t.id := by
    rw [← hname]
    exact h'.idOf_stored hget (Subscription.hasReservedName_reservedName hname)
  have hsaved : (s.envelopedAs (r'.idOf (reservedName requestor client)) requestor client).normalized =
      t := by
    rw [hfound, ht]
    rfl
  refine subscribe_eq_ok.mpr ⟨requestor, client, href, ?_⟩
  dsimp only
  rw [hsaved]
  constructor
  · rw [ht]
    exact hcheck
  · have hagain := Saved.replaced (r := r') (h'.visible hget) hget
    rwa [h'.consistent.replace_self hget] at hagain

end Registry.Lawful

/-! ## Operations and runs -/

/-- What changes the registry: requests, a reload of the store, answers to pushes, and sweeps. -/
inductive RegistryOp where
  | put (s : Subscription)
  | subscribe (s : Subscription)
  | remove (id : SubscriptionId)
  | reload
  | recordSuccess (id : SubscriptionId)
  | recordFailure (id : SubscriptionId)
  | sweep (planner : Planner) (now : Timestamp)

/-- A subscription is saved under an identifier, by one who subscribes by envelope with two references
or else by a put. -/
structure Save where
  id : SubscriptionId
  subscriber : Option (String × String)
deriving DecidableEq

namespace Courier

section
variable {σ τ : Type} [SubscriptionStore σ]

/-- The courier after an operation on its registry; a request that is refused leaves it as it was. -/
def manage (c : Courier σ τ) : RegistryOp → Courier σ τ
  | .put s =>
    match c.registry.put s with
    | .ok (_, registry) => { c with registry }
    | .error _ => c
  | .subscribe s =>
    match c.registry.subscribe s with
    | .ok (_, registry) => { c with registry }
    | .error _ => c
  | .remove id =>
    match c.registry.remove id with
    | .ok (_, registry) => { c with registry }
    | .error _ => c
  | .reload => { c with registry := c.registry.reload }
  | .recordSuccess id =>
    match c.registry.recordSuccess id with
    | .ok registry => { c with registry }
    | .error _ => c
  | .recordFailure id => { c with registry := (c.registry.recordFailure id).2 }
  | .sweep planner now => (c.sweep planner now).2.2

def saveOf (c : Courier σ τ) : RegistryOp → Option Save
  | .put s =>
    match c.registry.put s with
    | .ok (t, _) => some ⟨t.id, none⟩
    | .error _ => none
  | .subscribe s =>
    match c.registry.subscribe s with
    | .ok (t, _) => some ⟨t.id, s.references?⟩
    | .error _ => none
  | _ => none

def manageAll (c : Courier σ τ) : List RegistryOp → Courier σ τ
  | [] => c
  | op :: ops => (c.manage op).manageAll ops

end

variable {τ : Type} {c : Courier MemoryStore τ}

/-! ## What an operation does -/

/-- An operation saves a subscription, or everybody stored was stored before. -/
theorem manage_cases (h : c.registry.store.Consistent) (op : RegistryOp) :
    (∃ s t, c.registry.put s = .ok (t, (c.manage op).registry) ∧ c.saveOf op = some ⟨t.id, none⟩) ∨
    (∃ s t, c.registry.subscribe s = .ok (t, (c.manage op).registry) ∧
      c.saveOf op = some ⟨t.id, s.references?⟩) ∨
    c.registry.Inherits (c.manage op).registry ∧ c.saveOf op = none := by
  cases op with
  | put s =>
    cases hput : c.registry.put s with
    | ok saved => exact .inl ⟨s, saved.1, by rw [manage, hput], by rw [saveOf, hput]⟩
    | error e =>
      rw [manage, saveOf, hput]
      exact .inr (.inr ⟨.refl h, rfl⟩)
  | subscribe s =>
    cases hsub : c.registry.subscribe s with
    | ok saved => exact .inr (.inl ⟨s, saved.1, by rw [manage, hsub], by rw [saveOf, hsub]⟩)
    | error e =>
      rw [manage, saveOf, hsub]
      exact .inr (.inr ⟨.refl h, rfl⟩)
  | remove id => exact .inr (.inr ⟨.without h id, rfl⟩)
  | reload =>
    have hsame : c.registry.reload = c.registry := by
      show { c.registry with store := c.registry.store.reload } = c.registry
      rw [h.reload_eq]
    rw [manage, hsame]
    exact .inr (.inr ⟨.refl h, rfl⟩)
  | recordSuccess id =>
    have hsettled := Registry.Inherits.settled h id .delivered
    rw [Registry.settled_delivered h] at hsettled
    rw [manage, Registry.recordSuccess_eq h]
    exact .inr (.inr ⟨hsettled, rfl⟩)
  | recordFailure id => exact .inr (.inr ⟨.settled h id (.failed none), rfl⟩)
  | sweep planner now =>
    have hentries : c.registry.Inherits (c.registry.rescheduled planner now) :=
      ⟨h, rfl, fun id s hget => ⟨s, s.failedPushes, hget, rfl⟩⟩
    rw [manage, registry_sweep]
    exact .inr (.inr ⟨hentries.trans (.withoutAll hentries.consistent _), rfl⟩)

theorem lawful_manage (h : c.registry.Lawful) (op : RegistryOp) : (c.manage op).registry.Lawful := by
  rcases manage_cases h.consistent op with ⟨s, t, hput, -⟩ | ⟨s, t, hsub, -⟩ | ⟨hinherits, -⟩
  · exact h.put hput
  · exact h.subscribe hsub
  · exact h.inherit hinherits

theorem lawful_manageAll (h : c.registry.Lawful) (ops : List RegistryOp) :
    (c.manageAll ops).registry.Lawful := by
  induction ops generalizing c with
  | nil => exact h
  | cons op ops ih => exact ih (lawful_manage h op)

/-- No operation changes the names that are drawn. -/
theorem name_manageAll (h : c.registry.Lawful) (ops : List RegistryOp) :
    (c.manageAll ops).registry.ids.name = c.registry.ids.name := by
  induction ops generalizing c with
  | nil => rfl
  | cons op ops ih =>
    refine (ih (lawful_manage h op)).trans ?_
    rcases manage_cases h.consistent op with ⟨s, t, hput, -⟩ | ⟨s, t, hsub, -⟩ | ⟨hinherits, -⟩
    · exact (Registry.put_eq_ok.mp hput).2.name_ids
    · obtain ⟨_, _, -, -, hs⟩ := Registry.subscribe_eq_ok.mp hsub
      exact hs.name_ids
    · rw [hinherits.ids]

/-! ## Lifecycle -/

/-- **Whatever is stored is fit to be stored, and subscribing can be repeated.** From an empty store,
after any run: all stored subscriptions are well-formed; one with a reserved name is named after the
references it carries, and no other has its name; and a subscriber by envelope who succeeds gets the
same subscription when it subscribes again, which changes nothing. -/
theorem lifecycle_invariant (hstore : c.registry.store = .empty) (hids : c.registry.ids.Proper)
    (ops : List RegistryOp) :
    (∀ s ∈ SubscriptionStore.list (c.manageAll ops).registry.store, s.WellFormed) ∧
    (∀ s ∈ SubscriptionStore.list (c.manageAll ops).registry.store, s.hasReservedName = true →
      s.NamedByReferences ∧
        ∀ t ∈ SubscriptionStore.list (c.manageAll ops).registry.store, t.name = s.name → t = s) ∧
    ∀ s t r', (c.manageAll ops).registry.subscribe s = .ok (t, r') →
      r'.subscribe s = .ok (t, r') := by
  have h := lawful_manageAll (Registry.Lawful.empty hstore hids) ops
  refine ⟨?_, ?_, ?_⟩
  · intro s hs
    exact h.wellFormed s.id s (h.consistent.own.mem_values.mp hs)
  · intro s hs hname
    refine ⟨h.reserved s.id s (h.consistent.own.mem_values.mp hs) hname, ?_⟩
    intro t ht hsame
    exact h.eq_of_name hs ht hname hsame
  · intro s t r' hsub
    exact h.subscribe_again hsub

def idle : Courier MemoryStore PlayedTransport where
  registry := ⟨.empty, ∅, .tally, 1⟩
  transport := .empty
  counters := ∅
  waiting := []

/-- A subscriber by envelope with blanks around everything. -/
def spacedOut : Subscription :=
  { (Subscription.pushing "ignored" " http://a ").withCodespace " NSB " with
    requestor := some " dash ", clientRef := some "42" }

/-- The subscriber by envelope subscribes, is given a name of its own by an update, and subscribes
again. A push to it fails, others come and go. -/
def renamedRun : List RegistryOp :=
  [.subscribe spacedOut,
    .put { (Subscription.pushing " pair " "http://b").withStops " x" "y " with id := "i" },
    .put { (Subscription.pushing "SIRI-XML-dash-42" "http://c").withLine "1" with id := "i" },
    .subscribe spacedOut, .recordFailure "ii", .put ((Subscription.pushing "" "http://d").withLine "1"),
    .reload, .remove "iii", .sweep (.ofInterval Planner.defaultCheckInterval) .epoch]

theorem lifecycle_invariant_renamed :
    let last := (idle.manageAll renamedRun).registry
    (SubscriptionStore.list last.store).map (fun s => (s.id, s.name, s.failedPushes)) =
      [("i", "pair", 0), ("ii", "SIRI-XML-dash-42", 1)] ∧
    (∀ s ∈ SubscriptionStore.list last.store, s.WellFormed) ∧
    (∀ s ∈ SubscriptionStore.list last.store, s.hasReservedName = true →
      s.NamedByReferences ∧
        ∀ t ∈ SubscriptionStore.list last.store, t.name = s.name → t = s) ∧
    ∃ t r', last.subscribe spacedOut = .ok (t, r') ∧ r'.subscribe spacedOut = .ok (t, r') := by
  intro last
  obtain ⟨hwellFormed, hreserved, hagain⟩ :=
    lifecycle_invariant (c := idle) rfl Supply.tally_proper renamedRun
  have hok : (last.subscribe spacedOut).isOk = true := by decide
  cases hsub : last.subscribe spacedOut with
  | error e =>
    rw [hsub] at hok
    cases hok
  | ok saved =>
    exact ⟨by decide, hwellFormed, hreserved, saved.1, saved.2, rfl, hagain _ _ _ hsub⟩

end Courier
end TransitPush
