import TransitPush.Proofs.Registry.Effects
import TransitPush.Proofs.Registry.Validity
/-!
# What the registry stores

Subscriptions get into the store in one way only: they are brought into normal form, checked, and
saved under the next identifier or in place of the one whose identifier they carry. Everything else the
registry does takes subscriptions out or counts their failed pushes. So what holds of the stored
subscriptions has to be shown for one that is saved, and is inherited otherwise.

* `Registry.Saved`: the two ways of saving; `put_eq_ok` and `subscribe_eq_ok` reduce both operations
  that save to it.
* `Registry.Inherits`: nobody is stored who was not stored before, and nothing but failed pushes
  differs.
* `Registry.Lawful`: what holds of all stored subscriptions. It is kept by saving (`Lawful.put`,
  `Lawful.subscribe`) and inherited (`Lawful.inherit`).
-/
namespace TransitPush

/-- The names of a supply serve as identifiers: no two are the same and none is blank. -/
structure Supply.Proper (names : Supply) : Prop where
  distinct : names.Distinct
  visible : ∀ i, Text.isBlankText (names.name i) = false

/-- Names of one letter more each. -/
def Supply.tally : Supply where
  name n := .ofList (.replicate (n + 1) 'i')
  drawn := 0

theorem Supply.tally_proper : tally.Proper := by
  constructor
  · intro i j h
    have hlength := congrArg (fun name => name.toList.length) h
    simpa [tally] using hlength
  · intro n
    have hletter : Text.isBlank 'i' = false := by decide
    have hbare : Text.Bare (tally.name n).toList := by
      simp [tally, Text.Bare, List.head?_replicate, List.getLast?_replicate, hletter]
    rw [Text.isBlankText_eq_false, Text.trim_eq_self.mpr hbare]
    simp [tally]

/-- A subscription as a subscriber by envelope has it saved. -/
def Subscription.envelopedAs (s : Subscription) (id : SubscriptionId) (requestor client : String) :
    Subscription :=
  { s with id, name := reservedName requestor client, enveloped := true }

namespace Registry

variable {r r' r'' : Registry MemoryStore} {s t u : Subscription} {id : SubscriptionId}

theorem unstored_of_empty (hstore : r.store = .empty) (id : SubscriptionId) (s : Subscription) :
    r.store.subscriptions.get? id ≠ some s := by
  intro hget
  rw [hstore, MemoryStore.empty, Table.get?_emptyCollection] at hget
  cases hget

/-! ## Saving -/

/-- A subscription is saved and with it the registry becomes another: it is new and gets the next
identifier, or it takes the place of the one that is stored under its identifier. -/
inductive Saved (r : Registry MemoryStore) (s : Subscription) :
    Subscription → Registry MemoryStore → Prop
  | added (hid : Text.isBlankText s.id = true) :
    Saved r s { s with id := r.ids.draw.1 }
      { r with store := (r.store.add r.ids.draw.1 s).2, ids := r.ids.draw.2 }
  | replaced {before : Subscription} (hid : Text.isBlankText s.id = false)
      (hget : r.store.subscriptions.get? s.id = some before) :
    Saved r s s { r with store := r.store.replace before s }

theorem save_eq_ok {allowReserved : Bool} : r.save s allowReserved = .ok (t, r') ↔
    s.normalized.check allowReserved = .ok () ∧ Saved r s.normalized t r' := by
  cases hcheck : s.normalized.check allowReserved with
  | error p => simp [save, hcheck]
  | ok u =>
    simp only [save, hcheck, true_and]
    constructor
    · intro h
      split at h
      · rename_i hid
        cases h
        exact .added hid
      · rename_i hid
        rw [Bool.not_eq_true] at hid
        cases hget : r.store.subscriptions.get? s.normalized.id with
        | none => simp [replace, SubscriptionStore.update, MemoryStore.update, hget] at h
        | some before =>
          simp only [replace, SubscriptionStore.update, MemoryStore.update, hget] at h
          cases h
          exact .replaced hid hget
    · intro h
      cases h with
      | added hid => exact if_pos hid
      | replaced hid hget =>
        rw [if_neg (by simp [hid]), replace]
        simp [SubscriptionStore.update, MemoryStore.update, hget]

theorem put_eq_ok : r.put s = .ok (t, r') ↔
    s.normalized.check false = .ok () ∧ Saved r s.normalized t r' :=
  save_eq_ok

theorem subscribe_eq_ok : r.subscribe s = .ok (t, r') ↔
    ∃ requestor client, s.references? = some (requestor, client) ∧
      let e := (s.envelopedAs (r.idOf (reservedName requestor client)) requestor client).normalized
      e.check true = .ok () ∧ Saved r e t r' := by
  unfold subscribe Subscription.asEnveloped?
  cases s.references? with
  | none => simp
  | some pair =>
    obtain ⟨requestor, client⟩ := pair
    simp only [Option.map_some, Option.some.injEq, Prod.mk.injEq, save_eq_ok]
    constructor
    · intro h
      exact ⟨requestor, client, ⟨rfl, rfl⟩, h⟩
    · rintro ⟨_, _, ⟨rfl, rfl⟩, h⟩
      exact h

namespace Saved

/-- What is stored is what was saved, but for the identifier. -/
theorem eq_saved (h : Saved r s t r') : ∃ id, t = { s with id } := by
  cases h with
  | added hid => exact ⟨_, rfl⟩
  | replaced hid hget => exact ⟨s.id, rfl⟩

theorem subscriptions (h : Saved r s t r') :
    r'.store.subscriptions = r.store.subscriptions.insert t.id t := by
  cases h <;> rfl

theorem get? (h : Saved r s t r') (id : SubscriptionId) : r'.store.subscriptions.get? id =
    if id = t.id then some t else r.store.subscriptions.get? id := by
  rw [h.subscriptions]
  exact Table.get?_insert _ t.id id t

/-- Whoever is stored afterwards is the one saved or was stored before. -/
theorem saved_or_old (h : Saved r s t r') (hget : r'.store.subscriptions.get? id = some u) :
    (id = t.id ∧ u = t) ∨ (id ≠ t.id ∧ r.store.subscriptions.get? id = some u) := by
  rw [h.get?] at hget
  split at hget
  · rename_i hid
    exact .inl ⟨hid, (Option.some.inj hget).symm⟩
  · rename_i hid
    exact .inr ⟨hid, hget⟩

theorem drawn_le (h : Saved r s t r') : r.ids.drawn ≤ r'.ids.drawn := by
  cases h with
  | added hid => exact Nat.le_succ _
  | replaced hid hget => exact Nat.le_refl _

theorem name_ids (h : Saved r s t r') : r'.ids.name = r.ids.name := by
  cases h <;> rfl

end Saved

/-! ## Everything else -/

/-- Whoever is stored was stored before, and at most the failed pushes differ. -/
structure Inherits (r r' : Registry MemoryStore) : Prop where
  consistent : r'.store.Consistent
  ids : r'.ids = r.ids
  stored : ∀ id s, r'.store.subscriptions.get? id = some s → ∃ before failures,
    r.store.subscriptions.get? id = some before ∧ s = { before with failedPushes := failures }

namespace Inherits

theorem refl (h : r.store.Consistent) : Inherits r r :=
  ⟨h, rfl, fun _ s hget => ⟨s, s.failedPushes, hget, rfl⟩⟩

theorem trans (h : Inherits r r') (h' : Inherits r' r'') : Inherits r r'' := by
  refine ⟨h'.consistent, h'.ids.trans h.ids, fun id s hget => ?_⟩
  obtain ⟨between, failures, hbetween, rfl⟩ := h'.stored id s hget
  obtain ⟨before, -, hbefore, rfl⟩ := h.stored id between hbetween
  exact ⟨before, failures, hbefore, rfl⟩

theorem without (h : r.store.Consistent) (id : SubscriptionId) : Inherits r (r.without id) := by
  refine ⟨h.remove id, rfl, fun i s hget => ?_⟩
  by_cases hid : i = id
  · subst hid
    rw [show (r.without i).store = (r.store.remove i).2 from rfl, MemoryStore.get?_remove] at hget
    cases hget
  · have hother : SubscriptionStore.get? (r.without id).store i = SubscriptionStore.get? r.store i :=
      h.apply_frame (.remove id) fun heq => hid (Option.some.inj heq).symm
    exact ⟨s, s.failedPushes, hother.symm.trans hget, rfl⟩

theorem withoutAll (h : r.store.Consistent) (ss : List Subscription) :
    Inherits r (ss.foldl (fun r s => r.without s.id) r) := by
  induction ss generalizing r with
  | nil => exact refl h
  | cons s ss ih =>
    have hfirst := without h s.id
    exact hfirst.trans (ih hfirst.consistent)

theorem changed (h : r.store.Consistent) (id : SubscriptionId) {f : Subscription → Subscription}
    (hf : ∀ s, ∃ failures, f s = { s with failedPushes := failures }) :
    Inherits r (r.changed id f) := by
  refine ⟨h.apply (.modify id f) trivial, rfl, fun i s hget => ?_⟩
  by_cases hid : i = id
  · subst hid
    cases hbefore : r.store.subscriptions.get? i with
    | none =>
      rw [changed_unused hbefore, hbefore] at hget
      cases hget
    | some before =>
      rw [show (r.changed i f).store = (r.store.modify i f).2 from rfl,
        h.get?_modify hbefore] at hget
      obtain ⟨failures, hfailures⟩ := hf before
      rw [hfailures] at hget
      cases hget
      exact ⟨before, failures, rfl, rfl⟩
  · have hother : SubscriptionStore.get? (r.changed id f).store i =
        SubscriptionStore.get? r.store i :=
      h.apply_frame (.modify id f) fun heq => hid (Option.some.inj heq).symm
    exact ⟨s, s.failedPushes, hother.symm.trans hget, rfl⟩

/-- The outcome of a push. -/
theorem settled (h : r.store.Consistent) (id : SubscriptionId) (o : Outcome) :
    Inherits r (r.settled id o) := by
  cases o with
  | delivered =>
    rw [settled_delivered h]
    exact changed h id fun s => ⟨0, rfl⟩
  | reset => exact without h id
  | failed status =>
    cases hget : r.store.subscriptions.get? id with
    | none =>
      rw [settled_failed_unknown hget]
      exact refl h
    | some s =>
      have hcounted := changed h id (f := Subscription.countFailure) fun s => by
        unfold Subscription.countFailure
        split
        · exact ⟨_, rfl⟩
        · exact ⟨s.failedPushes, rfl⟩
      rw [settled_failed hget]
      split
      · exact hcounted
      · exact hcounted.trans (without hcounted.consistent id)

end Inherits

/-! ## Identifiers in use -/

/-- The next identifier is not in use, if all that are come from the supply. -/
theorem unused_of_issued (hproper : r.ids.Proper)
    (hissued : ∀ id s, r.store.subscriptions.get? id = some s → ∃ i < r.ids.drawn, id = r.ids.name i) :
    r.store.subscriptions.get? r.ids.draw.1 = none := by
  cases hget : r.store.subscriptions.get? r.ids.draw.1 with
  | none => rfl
  | some s =>
    obtain ⟨i, hi, hname⟩ := hissued _ s hget
    have hsame := hproper.distinct _ _ hname
    omega

/-- The one saved is stored under an identifier from the supply, and so are all others. -/
theorem Saved.issued (hs : Saved r s t r')
    (hissued : ∀ id s, r.store.subscriptions.get? id = some s → ∃ i < r.ids.drawn, id = r.ids.name i)
    (hget : r'.store.subscriptions.get? id = some u) :
    ∃ i < r'.ids.drawn, id = r'.ids.name i := by
  have hbefore : ∀ {v}, r.store.subscriptions.get? id = some v →
      ∃ i < r'.ids.drawn, id = r'.ids.name i := by
    intro v hv
    obtain ⟨i, hi, hname⟩ := hissued id v hv
    exact ⟨i, Nat.lt_of_lt_of_le hi hs.drawn_le, by rw [hs.name_ids, hname]⟩
  rcases hs.saved_or_old hget with ⟨rfl, -⟩ | ⟨-, hold⟩
  · cases hs with
    | added hid => exact ⟨r.ids.drawn, Nat.lt_succ_self _, rfl⟩
    | replaced hid hv => exact hbefore hv
  · exact hbefore hold

/-- Saving keeps the indexes right. -/
theorem Saved.consistent (hs : Saved r s t r') (h : r.store.Consistent) (hproper : r.ids.Proper)
    (hissued : ∀ id s, r.store.subscriptions.get? id = some s → ∃ i < r.ids.drawn, id = r.ids.name i) :
    r'.store.Consistent ∧ r'.ids.Proper := by
  cases hs with
  | added hid => exact ⟨h.add (unused_of_issued hproper hissued), hproper.distinct, hproper.visible⟩
  | replaced hid hget => exact ⟨h.replace hget, hproper⟩

/-! ## What holds of all stored subscriptions -/

/-- Identifiers come from the supply, subscriptions are well-formed, and a reserved name is made of the
references of the one subscription that has it. -/
structure Lawful (r : Registry MemoryStore) : Prop where
  consistent : r.store.Consistent
  proper : r.ids.Proper
  issued : ∀ id s, r.store.subscriptions.get? id = some s → ∃ i < r.ids.drawn, id = r.ids.name i
  wellFormed : ∀ id s, r.store.subscriptions.get? id = some s → s.WellFormed
  reserved : ∀ id s, r.store.subscriptions.get? id = some s → s.hasReservedName = true →
    s.NamedByReferences
  once : ∀ id s i t, r.store.subscriptions.get? id = some s →
    r.store.subscriptions.get? i = some t → s.hasReservedName = true → t.name = s.name → i = id

namespace Lawful

theorem empty (hstore : r.store = .empty) (hids : r.ids.Proper) : r.Lawful := by
  have hnone := unstored_of_empty hstore
  refine ⟨?_, hids, fun id s hget => absurd hget (hnone id s),
    fun id s hget => absurd hget (hnone id s), fun id s hget => absurd hget (hnone id s),
    fun id s _ _ hget => absurd hget (hnone id s)⟩
  rw [hstore]
  exact .empty

theorem visible (h : r.Lawful) (hget : r.store.subscriptions.get? id = some s) :
    Text.isBlankText id = false := by
  obtain ⟨i, -, rfl⟩ := h.issued id s hget
  exact h.proper.visible i

/-- The next identifier is not in use. -/
theorem unused (h : r.Lawful) : r.store.subscriptions.get? r.ids.draw.1 = none :=
  unused_of_issued h.proper h.issued

/-- What inherits from a lawful registry is lawful. -/
theorem inherit (h : r.Lawful) (hi : Inherits r r') : r'.Lawful where
  consistent := hi.consistent
  proper := hi.ids ▸ h.proper
  issued id s hget := by
    obtain ⟨before, -, hbefore, -⟩ := hi.stored id s hget
    rw [hi.ids]
    exact h.issued id before hbefore
  wellFormed id s hget := by
    obtain ⟨before, failures, hbefore, rfl⟩ := hi.stored id s hget
    exact (h.wellFormed id before hbefore).renumbered before.id failures
  reserved id s hget hname := by
    obtain ⟨before, failures, hbefore, rfl⟩ := hi.stored id s hget
    obtain ⟨henveloped, hnamed⟩ := h.reserved id before hbefore hname
    exact ⟨henveloped, hnamed⟩
  once id s i t hs ht hname hsame := by
    obtain ⟨before, _, hbefore, rfl⟩ := hi.stored id s hs
    obtain ⟨before', _, hbefore', rfl⟩ := hi.stored i t ht
    exact h.once id before i before' hbefore hbefore' hname hsame

/-- Saving keeps a registry lawful if a reserved name is made of references, and nobody else has it. -/
theorem saved (h : r.Lawful) (hs : Saved r s t r') (hwellFormed : s.WellFormed)
    (hreserved : s.hasReservedName = true → s.NamedByReferences)
    (honce : s.hasReservedName = true → ∀ i u, r.store.subscriptions.get? i = some u →
      u.name = s.name → i = t.id) : r'.Lawful := by
  obtain ⟨tid, ht⟩ := hs.eq_saved
  have hname : t.name = s.name := by rw [ht]
  have hsame : t.hasReservedName = s.hasReservedName := Subscription.hasReservedName_congr hname
  obtain ⟨hconsistent, hproper⟩ := hs.consistent h.consistent h.proper h.issued
  refine ⟨hconsistent, hproper, fun i u hget => hs.issued h.issued hget, ?_, ?_, ?_⟩
  · intro i u hget
    rcases hs.saved_or_old hget with ⟨-, rfl⟩ | ⟨-, hold⟩
    · rw [ht]
      exact hwellFormed.renumbered tid s.failedPushes
    · exact h.wellFormed i u hold
  · intro i u hget hres
    rcases hs.saved_or_old hget with ⟨-, rfl⟩ | ⟨-, hold⟩
    · rw [hsame] at hres
      obtain ⟨henveloped, hnamed⟩ := hreserved hres
      rw [ht]
      exact ⟨henveloped, hnamed⟩
    · exact h.reserved i u hold hres
  · intro i u j v hu hv hres hnames
    -- only the name of the one saved is new, and nobody stored before has it
    rcases hs.saved_or_old hu with ⟨rfl, rfl⟩ | ⟨-, hu⟩ <;>
      rcases hs.saved_or_old hv with ⟨rfl, rfl⟩ | ⟨-, hv⟩
    · rfl
    · rw [hsame] at hres
      exact honce hres j v hv (hnames.trans hname)
    · rw [← Subscription.hasReservedName_congr hnames, hsame] at hres
      exact (honce hres i u hu (hnames.symm.trans hname)).symm
    · exact h.once i u j v hu hv hres hnames

/-! ## Subscribers by envelope -/

/-- The identifier found for a reserved name is the one under which the name is stored. -/
theorem idOf_stored (h : r.Lawful) (hget : r.store.subscriptions.get? id = some s)
    (hname : s.hasReservedName = true) : r.idOf s.name = id := by
  have hlisted : s ∈ SubscriptionStore.list r.store := by
    refine h.consistent.own.mem_values.mpr ?_
    rwa [h.consistent.own id s hget]
  unfold idOf
  cases hfound : SubscriptionStore.byName? r.store s.name with
  | none =>
    have hnot := List.find?_eq_none.mp hfound s hlisted
    simp at hnot
  | some u =>
    have hu : u.name = s.name := by simpa using List.find?_some hfound
    have hstored := h.consistent.own.mem_values.mp (List.mem_of_find?_eq_some hfound)
    exact h.once id s u.id u hget hstored hname hu

/-- Under the identifier found for a name, nobody of another name is stored. -/
theorem name_of_idOf (h : r.Lawful) {name : String}
    (hget : r.store.subscriptions.get? (r.idOf name) = some u) : u.name = name := by
  have hvisible := h.visible hget
  unfold idOf at hget hvisible
  cases hfound : SubscriptionStore.byName? r.store name with
  | none =>
    rw [hfound] at hvisible
    exact absurd hvisible (by decide)
  | some v =>
    rw [hfound] at hget
    have hstored := h.consistent.own.mem_values.mp (List.mem_of_find?_eq_some hfound)
    have hsame : some v = some u := hstored.symm.trans hget
    cases hsame
    simpa using List.find?_some hfound

/-- A subscriber by envelope saves over the stored subscription of the same name, if there is one. -/
theorem id_of_saved (h : r.Lawful) {requestor client : String}
    (hs : Saved r (s.envelopedAs (r.idOf (reservedName requestor client)) requestor client).normalized
      t r')
    (hget : r.store.subscriptions.get? id = some u) (hname : u.name = reservedName requestor client) :
    id = t.id := by
  have hid : r.idOf (reservedName requestor client) = id := by
    rw [← hname]
    exact h.idOf_stored hget (Subscription.hasReservedName_reservedName hname)
  rw [hid] at hs
  cases hs with
  | added hblank =>
    rw [show (s.envelopedAs id requestor client).normalized.id = id from rfl, h.visible hget] at hblank
    cases hblank
  | replaced _ _ => rfl

theorem name_envelopedAs {requestor client : String}
    (href : s.references? = some (requestor, client)) :
    (s.envelopedAs id requestor client).normalized.name = reservedName requestor client := by
  obtain ⟨hr, hc⟩ := Subscription.references?_trimmed href
  exact reservedName_normalized hr hc

theorem namedByReferences_envelopedAs {requestor client : String}
    (href : s.references? = some (requestor, client)) :
    (s.envelopedAs id requestor client).normalized.NamedByReferences := by
  obtain ⟨r, c, hr, hc, hr', hc', rfl, rfl⟩ := Subscription.references?_eq_some.mp href
  exact ⟨rfl, r, c, hr, hc, hr', hc', name_envelopedAs href⟩

/-! ## The operations that save -/

theorem put (h : r.Lawful) (hput : r.put s = .ok (t, r')) : r'.Lawful := by
  obtain ⟨hcheck, hs⟩ := put_eq_ok.mp hput
  obtain ⟨-, -, -, hfree⟩ := Subscription.of_check_ok hcheck
  have hnot : s.normalized.hasReservedName ≠ true := by simp [hfree rfl]
  exact h.saved hs (Subscription.wellFormed_of_check hcheck) (fun hres => absurd hres hnot)
    fun hres => absurd hres hnot

theorem subscribe (h : r.Lawful) (hsub : r.subscribe s = .ok (t, r')) : r'.Lawful := by
  obtain ⟨requestor, client, href, hcheck, hs⟩ := subscribe_eq_ok.mp hsub
  refine h.saved hs (Subscription.wellFormed_of_check hcheck)
    (fun _ => namedByReferences_envelopedAs href) fun _ i u hget hname => ?_
  exact h.id_of_saved hs hget (hname.trans (name_envelopedAs href))

end Lawful
end Registry
end TransitPush
