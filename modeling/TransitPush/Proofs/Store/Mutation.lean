import TransitPush.Proofs.Store.Refinement
/-!
# One write

What a change or a removal means to look-ups, and the two ways to change a stored subscription. The
store in memory changes it in place; the common way is to look it up, change the copy and put that
back in the stead of the stored one.

* `MemoryStore.Consistent.get?_modify`, `get?_remove`, `modify_unused`, `remove_unused`: writes as
  look-ups see them.
* `MemoryStore.Consistent.modify_eq_common_iff`: in memory both ways are the same, in what they answer
  and in all that is stored, exactly for a change that keeps the identifier.
-/
namespace TransitPush

/-- The common way to change a stored subscription, whatever way the store has of its own. -/
def SubscriptionStore.modifyCommon {σ : Type} [SubscriptionStore σ] (store : σ) (id : SubscriptionId)
    (f : Subscription → Subscription) : Except StoreError (Option Subscription × σ) :=
  modifyByUpdate SubscriptionStore.get? SubscriptionStore.update store id f

/-- What a function makes of the subscription that is stored under an identifier keeps that
identifier. -/
def KeepsId {σ : Type} [SubscriptionStore σ] (store : σ) (id : SubscriptionId)
    (f : Subscription → Subscription) : Prop :=
  ∀ s, SubscriptionStore.get? store id = some s → (f s).id = id

/-! ## Writes as look-ups see them -/

namespace MemoryStore

variable {m : MemoryStore} {id : SubscriptionId}

theorem get?_after_remove (m : MemoryStore) (id k : SubscriptionId) :
    (m.remove id).2.subscriptions.get? k = if k = id then none else m.subscriptions.get? k := by
  unfold MemoryStore.remove
  cases hget : m.subscriptions.get? id with
  | none =>
    dsimp only
    split
    · rename_i hk
      rw [hk, hget]
    · rfl
  | some s => exact Table.get?_erase _ id k

theorem get?_remove (m : MemoryStore) (id : SubscriptionId) :
    (m.remove id).2.subscriptions.get? id = none :=
  (get?_after_remove m id id).trans (if_pos rfl)

theorem remove_unused (hget : m.subscriptions.get? id = none) : m.remove id = (none, m) := by
  unfold MemoryStore.remove
  rw [hget]

theorem modify_unused {f : Subscription → Subscription} (hget : m.subscriptions.get? id = none) :
    m.modify id f = (none, m) := by
  unfold MemoryStore.modify
  rw [hget]

/-- The indexes are kept apart from the subscriptions, so it does not matter which of them a change
comes to first. -/
theorem put_reindexed (m : MemoryStore) (before after : Subscription) :
    ((m.put after).unindex before).index after = m.replace before after :=
  rfl

theorem modify_eq {f : Subscription → Subscription} {s : Subscription}
    (hget : m.subscriptions.get? id = some s) :
    m.modify id f = (some { f s with id := s.id }, m.replace s { f s with id := s.id }) := by
  unfold MemoryStore.modify
  rw [hget, ← put_reindexed]

/-- Who is stored is replaced by an update. -/
theorem update_stored {s before : Subscription} (hget : m.subscriptions.get? s.id = some before) :
    m.update s = .ok (m.replace before s) := by
  unfold MemoryStore.update
  rw [hget]

namespace Consistent

theorem get?_modify (h : m.Consistent) {f : Subscription → Subscription} {s : Subscription}
    (hget : m.subscriptions.get? id = some s) :
    (m.modify id f).2.subscriptions.get? id = some { f s with id := s.id } := by
  obtain rfl : s.id = id := h.own id s hget
  rw [modify_eq hget]
  exact (Table.get?_insert _ s.id s.id _).trans (if_pos rfl)

/-- Writing a subscription as it is changes nothing, the indexes included. -/
theorem replace_self (h : m.Consistent) {s : Subscription}
    (hget : m.subscriptions.get? s.id = some s) : m.replace s s = m :=
  (h.replace hget).unique h (Table.insert_present hget)

/-- An identifier that is not in use is in no index. -/
theorem unindexed (h : m.Consistent) (hget : m.subscriptions.get? id = none) :
    ∀ ix ∈ [m.byStop, m.byLine, m.byCodespace], ∀ key, ¬ id ∈ ix.ids key := by
  intro ix hix key hid
  obtain ⟨ids, hids, hmem⟩ := Index.mem_ids.mp hid
  have hused := (h.indexed ix hix key ids hids).2 id hmem
  rw [show SubscriptionStore.get? m id = none from hget] at hused
  cases hused

end Consistent

/-! ## Two ways to change a subscription -/

/-- Putting back a changed copy replaces the subscription that was looked up. -/
theorem modifyCommon_kept {f : Subscription → Subscription} {s : Subscription}
    (hget : m.subscriptions.get? id = some s) (hid : (f s).id = id) :
    SubscriptionStore.modifyCommon m id f = .ok (some (f s), m.replace s (f s)) := by
  have hupdate : SubscriptionStore.update m (f s) = .ok (m.replace s (f s)) :=
    update_stored (by rw [hid, hget])
  unfold SubscriptionStore.modifyCommon modifyByUpdate
  rw [show SubscriptionStore.get? m id = some s from hget]
  dsimp only
  rw [hupdate]

/-- A copy that is put back is answered as the function made it. -/
theorem eq_of_modifyCommon {f : Subscription → Subscription} {s t : Subscription} {m' : MemoryStore}
    (hget : m.subscriptions.get? id = some s)
    (hmodify : SubscriptionStore.modifyCommon m id f = .ok (some t, m')) : t = f s := by
  unfold SubscriptionStore.modifyCommon modifyByUpdate at hmodify
  rw [show SubscriptionStore.get? m id = some s from hget] at hmodify
  dsimp only at hmodify
  split at hmodify
  · cases hmodify
    rfl
  · cases hmodify
  · cases hmodify

namespace Consistent

/-- A function that never changes the identifier keeps it. -/
theorem keepsId (h : m.Consistent) {f : Subscription → Subscription} (hf : ∀ s, (f s).id = s.id)
    (id : SubscriptionId) : KeepsId m id f :=
  fun s hget => (hf s).trans (h.own id s hget)

/-- In place, a change that keeps the identifier replaces the subscription by what the function makes
of it. -/
theorem modify_kept (h : m.Consistent) {f : Subscription → Subscription} {s : Subscription}
    (hget : m.subscriptions.get? id = some s) (hid : (f s).id = id) :
    m.modify id f = (some (f s), m.replace s (f s)) := by
  have hcopy : { f s with id := s.id } = f s := by rw [h.own id s hget, ← hid]
  rw [modify_eq hget, hcopy]

/-- Changing a subscription in place and putting back a changed copy are the same, in what they answer
and in all that is stored, exactly if the identifier is kept. -/
theorem modify_eq_common_iff (h : m.Consistent) (id : SubscriptionId)
    (f : Subscription → Subscription) :
    SubscriptionStore.modify m id f = SubscriptionStore.modifyCommon m id f ↔ KeepsId m id f := by
  cases hget : m.subscriptions.get? id with
  | none =>
    have hcommon : SubscriptionStore.modifyCommon m id f = .ok (none, m) := by
      unfold SubscriptionStore.modifyCommon modifyByUpdate
      rw [show SubscriptionStore.get? m id = none from hget]
    have hown : SubscriptionStore.modify m id f = .ok (none, m) :=
      congrArg Except.ok (modify_unused hget)
    rw [hcommon, hown]
    exact iff_of_true rfl fun s hs => by cases hget.symm.trans hs
  | some s =>
    constructor
    · intro hsame t ht
      cases hget.symm.trans ht
      -- the answer in place has the old identifier, and the copy is answered as it was made
      have hown : SubscriptionStore.modify m id f = .ok (some { f s with id := s.id }, _) :=
        congrArg Except.ok (modify_eq hget)
      have hcopy : { f s with id := s.id } = f s := eq_of_modifyCommon hget (hsame.symm.trans hown)
      rw [← hcopy]
      exact h.own id s hget
    · intro hkeeps
      have hid : (f s).id = id := hkeeps s hget
      rw [modifyCommon_kept hget hid]
      exact congrArg Except.ok (h.modify_kept hget hid)

end Consistent
end MemoryStore
end TransitPush
