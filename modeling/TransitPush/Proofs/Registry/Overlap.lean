import Mathlib.Data.List.Infix
import Mathlib.Data.List.Perm.Basic
import TransitPush.Proofs.Registry.Subscribers
/-!
# Subscribers by envelope at the same time

Who subscribes by envelope has the reserved name looked up first, and the subscription is written then,
under the identifier that was found. Between the two others look up, write and are removed. Requests
that find nobody before any of them has written all add their subscription, so there may be as many
under one name as such requests were open at a time, and no more.

* `Registry.subscribe_eq_lookUp`: look-up and write, one right after the other, are `subscribe`.
* `Desk`: a registry with the requests that have looked up and not written yet. With nothing between
  its two steps a request does what `subscribe` does (`Desk.run_lookUp_write`).
* `Desk.Sound`, `Desk.Bounded`, `Desk.Stands`: what holds while the steps of requests interleave, with
  one lemma for each step.
* `Desk.overlap_bounded`: how many are stored under one name, and which if there is but one.
-/
namespace TransitPush

/-! ## The two steps -/

namespace Registry

/-- The subscription that is to be written for a subscriber by envelope, under the identifier found for
its name; nothing without references. -/
def lookUp {σ : Type} [SubscriptionStore σ] (r : Registry σ) (s : Subscription) :
    Option Subscription :=
  s.asEnveloped?.map fun e => { e with id := r.idOf e.name }

/-- Who looks up and writes at once, subscribes. -/
theorem subscribe_eq_lookUp {σ : Type} [SubscriptionStore σ] (r : Registry σ) (s : Subscription) :
    r.subscribe s = match r.lookUp s with
      | some e => r.save e true
      | none => .error .missingReferences := by
  unfold subscribe lookUp
  cases s.asEnveloped? <;> rfl

end Registry

/-- A registry, and the subscriptions that are looked up and not written yet. -/
structure Desk where
  registry : Registry MemoryStore
  pending : List Subscription

/-- A step of a request by envelope, which looks up or writes, a removal, or the outcome of a push. -/
inductive DeskOp where
  | lookUp (s : Subscription)
  | write (i : Nat)
  | remove (id : SubscriptionId)
  | settle (id : SubscriptionId) (o : Outcome)

/-- What became of a subscription. -/
inductive DeskEvent where
  | written (t : Subscription)
  | removed (id : SubscriptionId)

namespace Desk

/-- The desk after a step. A write that is refused leaves the registry as it was. -/
def step (d : Desk) : DeskOp → Desk
  | .lookUp s => { d with pending := d.pending ++ (d.registry.lookUp s).toList }
  | .write i =>
    match d.pending[i]? with
    | some e =>
      match d.registry.save e true with
      | .ok (_, registry) => ⟨registry, d.pending.eraseIdx i⟩
      | .error _ => { d with pending := d.pending.eraseIdx i }
    | none => d
  | .remove id => { d with registry := d.registry.without id }
  | .settle id o => { d with registry := d.registry.settled id o }

def run (d : Desk) : List DeskOp → Desk
  | [] => d
  | op :: ops => (d.step op).run ops

/-- A request between whose steps nothing comes leaves the registry as `subscribe` does. -/
theorem run_lookUp_write (r : Registry MemoryStore) (s : Subscription) :
    (Desk.mk r []).run [.lookUp s, .write 0] =
      ⟨match r.subscribe s with
        | .ok (_, registry) => registry
        | .error _ => r, []⟩ := by
  rw [Registry.subscribe_eq_lookUp]
  cases hfound : r.lookUp s with
  | none => simp [run, step, hfound]
  | some e => cases hsave : r.save e true <;> simp [run, step, hfound, hsave]

def events (d : Desk) : DeskOp → List DeskEvent
  | .lookUp _ => []
  | .write i =>
    match d.pending[i]? with
    | some e =>
      match d.registry.save e true with
      | .ok (t, _) => [.written t]
      | .error _ => []
    | none => []
  | .remove id => [.removed id]
  | .settle id o =>
    if (SubscriptionStore.get? (d.registry.settled id o).store id).isNone then [.removed id] else []

def log (d : Desk) : List DeskOp → List DeskEvent
  | [] => []
  | op :: ops => d.events op ++ (d.step op).log ops

end Desk

/-- What stands written under a name. -/
def DeskEvent.standing (name : String) (before : Option Subscription) :
    DeskEvent → Option Subscription
  | .written t => if t.name = name then some t else before
  | .removed id => before.filter fun t => t.id ≠ id

/-- What was written last under a name, unless it was removed since. -/
def lastWritten (name : String) (log : List DeskEvent) : Option Subscription :=
  log.foldl (DeskEvent.standing name) none

theorem lastWritten_append {name : String} {log more : List DeskEvent} :
    lastWritten name (log ++ more) = more.foldl (DeskEvent.standing name) (lastWritten name log) :=
  List.foldl_append

/-- The look-up found nobody of a name. -/
def Subscription.isVacant (name : String) (e : Subscription) : Bool :=
  Text.isBlankText e.id && e.name = name

/-- How many open requests found nobody of a name. -/
def Desk.vacancies (d : Desk) (name : String) : Nat :=
  d.pending.countP (Subscription.isVacant name)

/-! ## What a look-up finds -/

namespace Registry

variable {r r' : Registry MemoryStore} {s t e : Subscription} {name : String} {id : SubscriptionId}

/-- Nobody of the name is stored, or the identifier of somebody who is. -/
theorem idOf_cases (h : r.store.Consistent) (name : String) :
    (r.idOf name = "" ∧ ∀ id s, r.store.subscriptions.get? id = some s → s.name ≠ name) ∨
    ∃ v, r.store.subscriptions.get? v.id = some v ∧ v.name = name ∧ r.idOf name = v.id := by
  unfold idOf
  cases hfound : SubscriptionStore.byName? r.store name with
  | none =>
    refine .inl ⟨rfl, fun id s hget hname => ?_⟩
    have hlisted : s ∈ SubscriptionStore.list r.store :=
      h.own.mem_values.mpr (by rwa [h.own id s hget])
    have hnot := List.find?_eq_none.mp hfound s hlisted
    simp [hname] at hnot
  | some v =>
    have hstored := h.own.mem_values.mp (List.mem_of_find?_eq_some hfound)
    exact .inr ⟨v, hstored, by simpa using List.find?_some hfound, rfl⟩

theorem lookUp_eq_some : r.lookUp s = some e ↔ ∃ requestor client,
    s.references? = some (requestor, client) ∧
    e = s.envelopedAs (r.idOf (reservedName requestor client)) requestor client := by
  unfold lookUp Subscription.asEnveloped?
  cases s.references? with
  | none => simp
  | some pair =>
    obtain ⟨requestor, client⟩ := pair
    simp only [Option.map_some, Option.some.injEq, Prod.mk.injEq]
    constructor
    · rintro rfl
      exact ⟨requestor, client, ⟨rfl, rfl⟩, rfl⟩
    · rintro ⟨_, _, ⟨rfl, rfl⟩, rfl⟩
      rfl

end Registry

/-! ## Steps -/

namespace Desk

open Registry

variable {d d' : Desk} {es log : List DeskEvent} {name : String} {k i : Nat} {e t : Subscription}
  {r' : Registry MemoryStore}

/-- What a step does: a request looks up, is refused or writes, or a subscription is removed or a push
to it counted. -/
inductive Moves (d : Desk) : Desk → List DeskEvent → Prop
  | idle : Moves d d []
  | opened {s e : Subscription} (hfound : d.registry.lookUp s = some e) :
    Moves d { d with pending := d.pending ++ [e] } []
  | refused {i : Nat} {e : Subscription} (hpending : d.pending[i]? = some e) :
    Moves d { d with pending := d.pending.eraseIdx i } []
  | saved {i : Nat} {e t : Subscription} {r' : Registry MemoryStore}
    (hpending : d.pending[i]? = some e) (hs : Saved d.registry e.normalized t r') :
    Moves d ⟨r', d.pending.eraseIdx i⟩ [.written t]
  | answered {id : SubscriptionId} {r' : Registry MemoryStore} (hi : Inherits d.registry r')
    (hothers : ∀ k, k ≠ id →
      r'.store.subscriptions.get? k = d.registry.store.subscriptions.get? k) :
    Moves d { d with registry := r' }
      (if (r'.store.subscriptions.get? id).isNone then [.removed id] else [])

theorem moves_step (h : d.registry.store.Consistent) (op : DeskOp) :
    d.Moves (d.step op) (d.events op) := by
  cases op with
  | lookUp s =>
    unfold step events
    dsimp only
    cases hfound : d.registry.lookUp s with
    | none =>
      rw [Option.toList_none, List.append_nil]
      exact .idle
    | some e => exact .opened hfound
  | write i =>
    unfold step events
    dsimp only
    cases hpending : d.pending[i]? with
    | none => exact .idle
    | some e =>
      dsimp only
      cases hsave : d.registry.save e true with
      | error err => exact .refused hpending
      | ok saved => exact .saved hpending (save_eq_ok.mp hsave).2
  | remove id =>
    have hnone : (d.registry.without id).store.subscriptions.get? id = none :=
      d.registry.store.get?_remove id
    have hmoves := Moves.answered (d := d) (.without h id)
      fun k hk => (Spares.without h (Ne.symm hk)).get?
    rw [hnone] at hmoves
    exact hmoves
  | settle id o =>
    exact .answered (.settled h id o) fun k hk => (Spares.settled h (Ne.symm hk) o).get?

/-! ## Names that stay -/

/-- Identifiers come from the supply. An identifier that was found for a name is one of them, and as
long as somebody is stored under it the name is the same. -/
structure Sound (d : Desk) : Prop where
  consistent : d.registry.store.Consistent
  proper : d.registry.ids.Proper
  issued : ∀ id s, d.registry.store.subscriptions.get? id = some s →
    ∃ i < d.registry.ids.drawn, id = d.registry.ids.name i
  named : ∀ e ∈ d.pending, e.normalized.name = e.name
  found : ∀ e ∈ d.pending, Text.isBlankText e.id = false →
    (∃ i < d.registry.ids.drawn, e.id = d.registry.ids.name i) ∧
    ∀ s, d.registry.store.subscriptions.get? e.id = some s → s.name = e.name

theorem Sound.empty {r : Registry MemoryStore} (hstore : r.store = .empty) (hids : r.ids.Proper) :
    Sound ⟨r, []⟩ where
  consistent := (Lawful.empty hstore hids).consistent
  proper := hids
  issued id s hget := absurd hget (unstored_of_empty hstore id s)
  named _ he := absurd he List.not_mem_nil
  found _ he := absurd he List.not_mem_nil

/-- The next identifier is none that was found. -/
theorem Sound.found_ne (h : d.Sound) {e : Subscription} (he : e ∈ d.pending)
    (hvisible : Text.isBlankText e.id = false) : e.id ≠ d.registry.ids.draw.1 := by
  intro hid
  obtain ⟨⟨i, hi, hname⟩, -⟩ := h.found e he hvisible
  have hsame := h.proper.distinct _ _ (hname.symm.trans hid)
  omega

/-- What a look-up leads to: nobody of the name is stored, or the identifier is of somebody who is. -/
theorem Sound.lookUp_cases (h : d.Sound) {s e : Subscription} (hfound : d.registry.lookUp s = some e) :
    e.normalized.name = e.name ∧
    ((Text.isBlankText e.id = true ∧
        ∀ id t, d.registry.store.subscriptions.get? id = some t → t.name ≠ e.name) ∨
      ∃ v, d.registry.store.subscriptions.get? e.id = some v ∧ v.name = e.name ∧
        Text.isBlankText e.id = false) := by
  obtain ⟨requestor, client, href, rfl⟩ := lookUp_eq_some.mp hfound
  refine ⟨Lawful.name_envelopedAs href, ?_⟩
  rcases idOf_cases h.consistent (reservedName requestor client) with ⟨hblank, hnobody⟩ | ⟨v, hv, hname, hid⟩
  · refine .inl ⟨?_, hnobody⟩
    show Text.isBlankText (d.registry.idOf (reservedName requestor client)) = true
    rw [hblank]
    decide
  · obtain ⟨i, -, hissued⟩ := h.issued v.id v hv
    refine .inr ⟨v, ?_, hname, ?_⟩
    · exact (congrArg d.registry.store.subscriptions.get? hid).trans hv
    · show Text.isBlankText (d.registry.idOf (reservedName requestor client)) = false
      rw [hid, hissued]
      exact h.proper.visible i

/-- A request that found nobody adds a subscription, any other replaces one of the same name. -/
theorem Sound.write_cases (h : d.Sound) (he : e ∈ d.pending)
    (hs : Saved d.registry e.normalized t r') :
    t.name = e.name ∧
    ((Text.isBlankText e.id = true ∧ t.id = d.registry.ids.draw.1 ∧
        d.registry.store.subscriptions.get? t.id = none) ∨
      (Text.isBlankText e.id = false ∧
        ∃ before, d.registry.store.subscriptions.get? t.id = some before ∧ before.name = e.name)) := by
  have hname := h.named e he
  cases hs with
  | added hblank => exact ⟨hname, .inl ⟨hblank, rfl, unused_of_issued h.proper h.issued⟩⟩
  | replaced hvisible hget =>
    exact ⟨hname, .inr ⟨hvisible, _, hget, (h.found e he hvisible).2 _ hget⟩⟩

theorem Sound.opened (h : d.Sound) {s : Subscription} (hfound : d.registry.lookUp s = some e) :
    Sound { d with pending := d.pending ++ [e] } := by
  obtain ⟨hname, hcases⟩ := h.lookUp_cases hfound
  refine { h with named := ?_, found := ?_ }
  · exact List.forall_mem_append.mpr ⟨h.named, List.forall_mem_singleton.mpr hname⟩
  · refine List.forall_mem_append.mpr ⟨h.found, List.forall_mem_singleton.mpr fun hvisible => ?_⟩
    rcases hcases with ⟨hblank, -⟩ | ⟨v, hv, hvname, -⟩
    · rw [hblank] at hvisible
      cases hvisible
    · refine ⟨h.issued _ v hv, fun t ht => ?_⟩
      rw [hv] at ht
      cases ht
      exact hvname

theorem Sound.refused (h : d.Sound) (i : Nat) : Sound { d with pending := d.pending.eraseIdx i } :=
  { h with
    named := fun e he => h.named e (List.mem_of_mem_eraseIdx he)
    found := fun e he => h.found e (List.mem_of_mem_eraseIdx he) }

theorem Sound.saved (h : d.Sound) (hpending : d.pending[i]? = some e)
    (hs : Saved d.registry e.normalized t r') : Sound ⟨r', d.pending.eraseIdx i⟩ := by
  obtain ⟨hconsistent, hproper⟩ := hs.consistent h.consistent h.proper h.issued
  refine ⟨hconsistent, hproper, fun id u hget => hs.issued h.issued hget,
    fun e he => h.named e (List.mem_of_mem_eraseIdx he), fun e he hvisible => ?_⟩
  have he := List.mem_of_mem_eraseIdx he
  obtain ⟨⟨i, hi, hname⟩, hstored⟩ := h.found e he hvisible
  refine ⟨⟨i, Nat.lt_of_lt_of_le hi hs.drawn_le, by rw [hs.name_ids, hname]⟩, fun u hget => ?_⟩
  rcases hs.saved_or_old hget with ⟨hid, rfl⟩ | ⟨-, hold⟩
  · obtain ⟨hwritten, ⟨-, hdrawn, -⟩ | ⟨-, before, hbefore, hsame⟩⟩ :=
      h.write_cases (List.mem_of_getElem? hpending) hs
    · exact absurd (hid.trans hdrawn) (h.found_ne he hvisible)
    · rw [← hid] at hbefore
      exact hwritten.trans (hsame.symm.trans (hstored before hbefore))
  · exact hstored u hold

theorem Sound.answered (h : d.Sound) (hi : Inherits d.registry r') :
    Sound { d with registry := r' } := by
  refine ⟨hi.consistent, ?_, fun id u hget => ?_, h.named, fun e he hvisible => ?_⟩
  · rw [hi.ids]
    exact h.proper
  · obtain ⟨before, -, hbefore, -⟩ := hi.stored id u hget
    rw [hi.ids]
    exact h.issued id before hbefore
  · obtain ⟨hissued, hstored⟩ := h.found e he hvisible
    rw [hi.ids]
    refine ⟨hissued, fun u hget => ?_⟩
    obtain ⟨before, failures, hbefore, rfl⟩ := hi.stored e.id u hget
    exact hstored before hbefore

theorem Sound.moves (h : d.Sound) (hm : d.Moves d' es) : d'.Sound := by
  cases hm with
  | idle => exact h
  | opened hfound => exact h.opened hfound
  | refused hpending => exact h.refused _
  | saved hpending hs => exact h.saved hpending hs
  | answered hi hothers => exact h.answered hi

/-! ## How many are stored -/

/-- Somebody of a name is stored under an identifier. -/
def Named (d : Desk) (name : String) (id : SubscriptionId) : Prop :=
  ∃ s, d.registry.store.subscriptions.get? id = some s ∧ s.name = name

/-- Subscriptions of a name and open requests that found none are no more than a number. -/
def Bounded (name : String) (k : Nat) (d : Desk) : Prop :=
  ∀ ids : List SubscriptionId, ids.Nodup → (∀ id ∈ ids, d.Named name id) →
    ids.length + d.vacancies name ≤ k

/-- Where nobody new of the name is stored and no vacancy opens, the bound stays. -/
theorem Bounded.mono (h : d.Bounded name k) (hnamed : ∀ id, d'.Named name id → d.Named name id)
    (hvacancies : d'.vacancies name ≤ d.vacancies name) : d'.Bounded name k := by
  intro ids hnodup hids
  have hbound := h ids hnodup fun id hid => hnamed id (hids id hid)
  omega

theorem vacancies_eraseIdx {r : Registry MemoryStore} {i : Nat} {e : Subscription}
    (hpending : d.pending[i]? = some e) :
    d.vacancies name = (Desk.mk r (d.pending.eraseIdx i)).vacancies name +
      if e.isVacant name then 1 else 0 := by
  obtain ⟨hi, rfl⟩ := List.getElem?_eq_some_iff.mp hpending
  unfold vacancies
  rw [← List.Perm.countP_eq _ (List.getElem_cons_eraseIdx_perm hi), List.countP_cons]

theorem Bounded.opened (h : d.Bounded name k) (hs : d.Sound) {s : Subscription}
    (hfound : d.registry.lookUp s = some e)
    (hopen : Desk.vacancies { d with pending := d.pending ++ [e] } name ≤ k) :
    Bounded name k { d with pending := d.pending ++ [e] } := by
  obtain ⟨-, hcases⟩ := hs.lookUp_cases hfound
  have hcount : Desk.vacancies { d with pending := d.pending ++ [e] } name =
      d.vacancies name + if e.isVacant name then 1 else 0 := by
    unfold vacancies
    rw [List.countP_append, List.countP_singleton]
  by_cases hvacant : e.isVacant name = true
  · -- the look-up found nobody, so there is nobody to count
    obtain ⟨hblank, hname⟩ := Bool.and_eq_true_iff.mp hvacant
    obtain rfl : e.name = name := by simpa using hname
    rintro ids - hids
    cases ids with
    | nil => simpa using hopen
    | cons id ids =>
      obtain ⟨t, ht, htname⟩ := hids id List.mem_cons_self
      rcases hcases with ⟨-, hnobody⟩ | ⟨_, -, -, hvisible⟩
      · exact absurd htname (hnobody id t ht)
      · rw [hblank] at hvisible
        cases hvisible
  · refine h.mono (fun id hid => hid) ?_
    rw [hcount, if_neg hvacant]
    exact Nat.le_refl _

/-- Who is stored under a name after a write was so before, but for what is written. -/
theorem Named.before (hsaved : Saved d.registry e.normalized t r') {pending : List Subscription}
    {id : SubscriptionId} (hnamed : Named ⟨r', pending⟩ name id) :
    id = t.id ∧ t.name = name ∨ id ≠ t.id ∧ d.Named name id := by
  obtain ⟨u, hget, hname⟩ := hnamed
  rcases hsaved.saved_or_old hget with ⟨hid, rfl⟩ | ⟨hne, hold⟩
  · exact .inl ⟨hid, hname⟩
  · exact .inr ⟨hne, u, hold, hname⟩

theorem Bounded.saved (h : d.Bounded name k) (hs : d.Sound) (hpending : d.pending[i]? = some e)
    (hsaved : Saved d.registry e.normalized t r') : Bounded name k ⟨r', d.pending.eraseIdx i⟩ := by
  obtain ⟨hwritten, hcases⟩ := hs.write_cases (List.mem_of_getElem? hpending) hsaved
  have hcount := @vacancies_eraseIdx d name r' i e hpending
  by_cases hvacant : e.isVacant name = true
  · -- one vacancy less, one subscription more
    rw [if_pos hvacant] at hcount
    intro ids hnodup hids
    have hbound := h (ids.erase t.id) (hnodup.erase _) fun id hid => by
      obtain ⟨hne, hid⟩ := hnodup.mem_erase_iff.mp hid
      exact ((Named.before hsaved (hids id hid)).resolve_left fun hsame => hne hsame.1).2
    rw [List.length_erase] at hbound
    split at hbound <;> omega
  · rw [if_neg hvacant] at hcount
    refine h.mono (fun id hid => ?_) (Nat.le_of_eq hcount.symm)
    rcases Named.before hsaved hid with ⟨rfl, hname⟩ | ⟨-, hold⟩
    · rcases hcases with ⟨hblank, -, -⟩ | ⟨-, before, hbefore, hsame⟩
      · exact absurd (by simp [Subscription.isVacant, hblank, ← hwritten, hname]) hvacant
      · exact ⟨before, hbefore, hsame.trans (hwritten.symm.trans hname)⟩
    · exact hold

theorem Bounded.moves (h : d.Bounded name k) (hs : d.Sound) (hm : d.Moves d' es)
    (hopen : d'.vacancies name ≤ k) : d'.Bounded name k := by
  cases hm with
  | idle => exact h
  | opened hfound => exact h.opened hs hfound hopen
  | refused hpending =>
    refine h.mono (fun id hid => hid) ?_
    rw [vacancies_eraseIdx (r := d.registry) hpending]
    exact Nat.le_add_right _ _
  | saved hpending hsaved => exact h.saved hs hpending hsaved
  | answered hi hothers =>
    refine h.mono (fun id hid => ?_) (Nat.le_refl _)
    obtain ⟨s, hget, hname⟩ := hid
    obtain ⟨before, failures, hbefore, rfl⟩ := hi.stored id s hget
    exact ⟨before, hbefore, hname⟩

/-! ## Which is stored -/

/-- What stands written under a name is stored, up to its failed pushes, and nobody else is. -/
structure Stands (name : String) (log : List DeskEvent) (d : Desk) : Prop where
  stored : ∀ t, lastWritten name log = some t → t.name = name ∧
    ∃ s, d.registry.store.subscriptions.get? t.id = some s ∧ s.clearFailures = t.clearFailures
  alone : ∀ id s, d.registry.store.subscriptions.get? id = some s → s.name = name →
    ∃ t, lastWritten name log = some t ∧ s.clearFailures = t.clearFailures

theorem Stands.keep (h : d.Stands name log) (hsame : d'.registry = d.registry) :
    d'.Stands name log where
  stored := by
    rw [hsame]
    exact h.stored
  alone := by
    rw [hsame]
    exact h.alone

/-- What is written under the name stands. Anybody else of the name would be one too many. -/
theorem Stands.saved_own (hsaved : Saved d.registry e.normalized t r') {pending : List Subscription}
    (hone : Bounded name 1 ⟨r', pending⟩) (hname : t.name = name) :
    Stands name (log ++ [.written t]) ⟨r', pending⟩ := by
  have hown : r'.store.subscriptions.get? t.id = some t := by rw [hsaved.get?, if_pos rfl]
  have hlast : lastWritten name (log ++ [.written t]) = some t :=
    lastWritten_append.trans (if_pos hname)
  refine ⟨fun u hu => ?_, fun id u hget huname => ⟨t, hlast, ?_⟩⟩
  · rw [hlast] at hu
    cases hu
    exact ⟨hname, t, hown, rfl⟩
  · by_cases hid : id = t.id
    · rw [hid, hown] at hget
      cases hget
      rfl
    · have hbound := hone [id, t.id] (by simp [hid]) (by
        simpa using ⟨⟨u, hget, huname⟩, ⟨t, hown, hname⟩⟩)
      have htwo : [id, t.id].length = 2 := rfl
      omega

/-- What is written under another name takes nobody's place. -/
theorem Stands.saved_other (h : d.Stands name log) (hs : d.Sound) (he : e ∈ d.pending)
    (hsaved : Saved d.registry e.normalized t r') {pending : List Subscription}
    (hname : t.name ≠ name) : Stands name (log ++ [.written t]) ⟨r', pending⟩ := by
  obtain ⟨hwritten, hcases⟩ := hs.write_cases he hsaved
  have hlast : lastWritten name (log ++ [.written t]) = lastWritten name log :=
    lastWritten_append.trans (if_neg hname)
  refine ⟨fun u hu => ?_, fun id u hget huname => ?_⟩
  · rw [hlast] at hu
    obtain ⟨huname, s, hget, hsame⟩ := h.stored u hu
    have hsname : s.name = name := (congrArg Subscription.name hsame).trans huname
    have hne : u.id ≠ t.id := by
      intro hid
      rw [hid] at hget
      rcases hcases with ⟨-, -, hnone⟩ | ⟨-, before, hbefore, hbname⟩
      · rw [hnone] at hget
        cases hget
      · rw [hbefore] at hget
        cases hget
        exact hname (hwritten.trans (hbname.symm.trans hsname))
    refine ⟨huname, s, ?_, hsame⟩
    rw [hsaved.get?, if_neg hne]
    exact hget
  · rw [hlast]
    rcases hsaved.saved_or_old hget with ⟨-, rfl⟩ | ⟨-, hold⟩
    · exact absurd huname hname
    · exact h.alone id u hold huname

/-- Who is stored after a removal or an answer stands written, if of the name. -/
theorem Stands.still (h : d.Stands name log) (hi : Inherits d.registry r') {s : Subscription}
    {id : SubscriptionId} (hget : r'.store.subscriptions.get? id = some s) (hname : s.name = name) :
    ∃ t, lastWritten name log = some t ∧ s.clearFailures = t.clearFailures := by
  obtain ⟨before, failures, hbefore, rfl⟩ := hi.stored id s hget
  exact h.alone id before hbefore hname

/-- A push to somebody who stays is counted. -/
theorem Stands.counted (h : d.Stands name log) (hi : Inherits d.registry r') {id : SubscriptionId}
    {after : Subscription} (hafter : r'.store.subscriptions.get? id = some after)
    (hothers : ∀ k, k ≠ id →
      r'.store.subscriptions.get? k = d.registry.store.subscriptions.get? k) :
    Stands name log { d with registry := r' } := by
  refine ⟨fun t ht => ?_, fun k s hget hname => h.still hi hget hname⟩
  obtain ⟨hname, s, hget, hsame⟩ := h.stored t ht
  refine ⟨hname, ?_⟩
  by_cases hid : t.id = id
  · obtain ⟨before, failures, hbefore, rfl⟩ := hi.stored id after hafter
    rw [hid, hbefore] at hget
    cases hget
    rw [hid]
    exact ⟨_, hafter, hsame⟩
  · exact ⟨s, (hothers t.id hid).trans hget, hsame⟩

/-- Nobody is stored under the identifier any more. -/
theorem Stands.removed (h : d.Stands name log) (hi : Inherits d.registry r')
    {id : SubscriptionId} (hafter : r'.store.subscriptions.get? id = none)
    (hothers : ∀ k, k ≠ id →
      r'.store.subscriptions.get? k = d.registry.store.subscriptions.get? k) :
    Stands name (log ++ [.removed id]) { d with registry := r' } := by
  have hlast : lastWritten name (log ++ [.removed id]) =
      (lastWritten name log).filter fun t => t.id ≠ id := lastWritten_append
  refine ⟨fun t ht => ?_, fun k s hget hname => ?_⟩
  · rw [hlast, Option.filter_eq_some_iff] at ht
    obtain ⟨ht, hid⟩ := ht
    obtain ⟨hname, s, hget, hsame⟩ := h.stored t ht
    exact ⟨hname, s, (hothers t.id (by simpa using hid)).trans hget, hsame⟩
  · obtain ⟨t, ht, hsame⟩ := h.still hi hget hname
    refine ⟨t, ?_, hsame⟩
    have htid : t.id = k := by
      have hsid : s.id = k := hi.consistent.own k s hget
      exact (congrArg Subscription.id hsame).symm.trans hsid
    have hne : k ≠ id := by
      rintro rfl
      rw [hafter] at hget
      cases hget
    rw [hlast, Option.filter_eq_some_iff]
    exact ⟨ht, by simpa [htid] using hne⟩

theorem Stands.moves (h : d.Stands name log) (hs : d.Sound) (hm : d.Moves d' es)
    (hone : d'.Bounded name 1) : d'.Stands name (log ++ es) := by
  cases hm with
  | idle =>
    rw [List.append_nil]
    exact h
  | opened hfound | refused hpending =>
    rw [List.append_nil]
    exact h.keep rfl
  | @saved _ _ t _ hpending hsaved =>
    by_cases hname : t.name = name
    · exact saved_own hsaved hone hname
    · exact h.saved_other hs (List.mem_of_getElem? hpending) hsaved hname
  | @answered id r' hi hothers =>
    cases hafter : r'.store.subscriptions.get? id with
    | some after =>
      rw [Option.isNone_some, if_neg Bool.false_ne_true, List.append_nil]
      exact h.counted hi hafter hothers
    | none => exact h.removed hi hafter hothers

/-! ## Runs -/

theorem sound_run (hs : d.Sound) (ops : List DeskOp) : (d.run ops).Sound := by
  induction ops generalizing d with
  | nil => exact hs
  | cons op ops ih => exact ih (hs.moves (moves_step hs.consistent op))

/-- The bound holds throughout if no more vacancies are ever open. -/
theorem bounded_run (hs : d.Sound) (h : d.Bounded name k) {ops : List DeskOp}
    (hopen : ∀ earlier, earlier <+: ops → (d.run earlier).vacancies name ≤ k) :
    (d.run ops).Bounded name k := by
  induction ops generalizing d with
  | nil => exact h
  | cons op ops ih =>
    have hm := moves_step hs.consistent op
    refine ih (hs.moves hm) (h.moves hs hm ?_) fun earlier hearlier => ?_
    · exact hopen [op] (List.cons_prefix_cons.mpr ⟨rfl, List.nil_prefix⟩)
    · exact hopen (op :: earlier) (List.cons_prefix_cons.mpr ⟨rfl, hearlier⟩)

theorem stands_run (hs : d.Sound) (hbound : d.Bounded name 1) (h : d.Stands name log)
    {ops : List DeskOp} (hopen : ∀ earlier, earlier <+: ops → (d.run earlier).vacancies name ≤ 1) :
    (d.run ops).Stands name (log ++ d.log ops) := by
  induction ops generalizing d log with
  | nil =>
    rw [Desk.log, List.append_nil]
    exact h
  | cons op ops ih =>
    have hm := moves_step hs.consistent op
    have hnext := hbound.moves hs hm (hopen [op] (List.cons_prefix_cons.mpr ⟨rfl, List.nil_prefix⟩))
    rw [Desk.log, ← List.append_assoc]
    exact ih (hs.moves hm) hnext (h.moves hs hm hnext) fun earlier hearlier =>
      hopen (op :: earlier) (List.cons_prefix_cons.mpr ⟨rfl, hearlier⟩)

def under (d : Desk) (name : String) : List Subscription :=
  (SubscriptionStore.list d.registry.store).filter fun s => s.name = name

theorem Bounded.length_under (h : d.Bounded name k) (hs : d.Sound) : (d.under name).length ≤ k := by
  have hids : ((SubscriptionStore.list d.registry.store).map Subscription.id).Nodup := by
    rw [show SubscriptionStore.list d.registry.store = d.registry.store.subscriptions.values from rfl,
      hs.consistent.own.map_id_values]
    exact d.registry.store.subscriptions.keys_nodup
  have hbound := h ((d.under name).map Subscription.id)
    (hids.sublist (List.filter_sublist.map Subscription.id)) fun id hid => by
      obtain ⟨s, hs', rfl⟩ := List.mem_map.mp hid
      obtain ⟨hlisted, hname⟩ := List.mem_filter.mp hs'
      exact ⟨s, hs.consistent.own.mem_values.mp hlisted, by simpa using hname⟩
  rw [List.length_map] at hbound
  omega

theorem Stands.byName? (h : d.Stands name log) (hs : d.Sound) :
    (SubscriptionStore.byName? d.registry.store name).map Subscription.clearFailures =
      (lastWritten name log).map Subscription.clearFailures := by
  cases hfound : SubscriptionStore.byName? d.registry.store name with
  | some s =>
    have hget := hs.consistent.own.mem_values.mp (List.mem_of_find?_eq_some hfound)
    obtain ⟨t, ht, hsame⟩ := h.alone s.id s hget (by simpa using List.find?_some hfound)
    rw [ht, Option.map_some, Option.map_some, hsame]
  | none =>
    cases hlast : lastWritten name log with
    | none => rfl
    | some t =>
      obtain ⟨hname, s, hget, hsame⟩ := h.stored t hlast
      have hlisted : s ∈ SubscriptionStore.list d.registry.store :=
        hs.consistent.own.mem_values.mpr (by rwa [hs.consistent.own t.id s hget])
      have hnot := List.find?_eq_none.mp hfound s hlisted
      have hsname : s.name = name := (congrArg Subscription.name hsame).trans hname
      simp [hsname] at hnot

/-- **Requests by envelope at the same time.** From an empty store, look-ups, writes, removals and
answers to pushes come in any order. No more subscriptions are ever stored under a name than requests
that found nobody of it were open at one time. If there was but one such request at a time, what is
stored under the name is what was written last under it, unless it was removed since. -/
theorem overlap_bounded {r : Registry MemoryStore} (hstore : r.store = .empty) (hids : r.ids.Proper)
    {ops : List DeskOp} {name : String} {k : Nat}
    (hopen : ∀ earlier, earlier <+: ops → ((Desk.mk r []).run earlier).vacancies name ≤ k) :
    let d := (Desk.mk r []).run ops
    (d.under name).length ≤ k ∧
    (k ≤ 1 → (SubscriptionStore.byName? d.registry.store name).map Subscription.clearFailures =
      (lastWritten name ((Desk.mk r []).log ops)).map Subscription.clearFailures) := by
  have hnobody : ∀ n, (Desk.mk r []).Bounded name n := by
    rintro n ids - hids
    cases ids with
    | nil => exact Nat.zero_le n
    | cons id ids =>
      obtain ⟨s, hget, -⟩ := hids id List.mem_cons_self
      exact absurd hget (unstored_of_empty hstore id s)
  have hsound : (Desk.mk r []).Sound := .empty hstore hids
  have hafter := sound_run hsound ops
  refine ⟨(bounded_run hsound (hnobody k) hopen).length_under hafter, fun hone => ?_⟩
  have hstands : (Desk.mk r []).Stands name [] := by
    refine ⟨fun t ht => ?_, fun id s hget => absurd hget (unstored_of_empty hstore id s)⟩
    cases ht
  exact (stands_run hsound (hnobody 1) hstands fun earlier hearlier =>
    Nat.le_trans (hopen earlier hearlier) hone).byName? hafter

def quiet : Desk := ⟨Courier.idle.registry, []⟩

/-- Two requests of one pair find nobody before either has written. Both add their subscription, and
the one written first stays. -/
theorem overlap_doubled :
    let first := Courier.byEnvelope "r" "c" "http://a"
    let second := Courier.byEnvelope "r" "c" "http://b"
    let ops := [.lookUp first, .lookUp second, .write 0, .write 0]
    let d := quiet.run ops
    d.pending = [] ∧
    (d.under (reservedName "r" "c")).map (fun s => (s.id, s.address)) =
      [("i", "http://a"), ("ii", "http://b")] ∧
    (lastWritten (reservedName "r" "c") (quiet.log ops)).map Subscription.id = some "ii" := by
  decide +kernel

/-- Only the first of three requests finds nobody. The last to look up writes before the second, and
then a push fails. -/
def threeRequests : List DeskOp :=
  let asks (address : String) := DeskOp.lookUp (Courier.byEnvelope "r" "c" address)
  [asks "http://a", .write 0, asks "http://b", asks "http://c", .write 1, .write 0,
    .settle "i" (.failed none)]

/-- The subscription of the second request stands. -/
theorem overlap_bounded_threeRequests :
    let name := reservedName "r" "c"
    let d := quiet.run threeRequests
    (d.under name).length ≤ 1 ∧
    (SubscriptionStore.byName? d.registry.store name).map Subscription.clearFailures =
      (lastWritten name (quiet.log threeRequests)).map Subscription.clearFailures ∧
    (lastWritten name (quiet.log threeRequests)).map Subscription.address = some "http://b" := by
  have hopen : ∀ earlier, earlier <+: threeRequests →
      (quiet.run earlier).vacancies (reservedName "r" "c") ≤ 1 := by
    intro earlier hearlier
    have hinits : ∀ earlier ∈ threeRequests.inits,
        (quiet.run earlier).vacancies (reservedName "r" "c") ≤ 1 := by decide +kernel
    exact hinits earlier ((List.mem_inits earlier threeRequests).mpr hearlier)
  obtain ⟨hbound, hstands⟩ := overlap_bounded (r := Courier.idle.registry) rfl Supply.tally_proper hopen
  exact ⟨hbound, hstands (Nat.le_refl 1), by decide +kernel⟩

end Desk
end TransitPush
