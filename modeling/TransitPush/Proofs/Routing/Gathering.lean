import TransitPush.Proofs.Store.Index
import TransitPush.Routing.Matching
/-!
# Gathering subscriptions

The matcher gathers what it finds in one table, path by path. Whatever the order and however often a
subscription is found, the table ends up with the stored subscriptions that some path finds, so it can
be described by a property: `Holds`.

* `Holds.foldl`: each step of a fold adds a property.
* `Holds.gather`, `Holds.collect`: what the two ways of adding subscriptions do.
* `Holds.unique`, `Holds.mem_values`, `Holds.ascending`: the property determines the table, and the
  values are listed by identifier.
-/
namespace TransitPush

/-- The table holds the stored subscriptions that have a property. -/
def Holds (subs found : Table Subscription) (p : Subscription → Prop) : Prop :=
  ∀ id s, found.get? id = some s ↔ subs.get? id = some s ∧ p s

def Stored (subs : Table Subscription) (ss : List Subscription) : Prop :=
  ∀ s ∈ ss, subs.get? s.id = some s

namespace Holds

variable {subs found : Table Subscription} {p q : Subscription → Prop}

theorem nothing : Holds subs ∅ fun _ => False := by
  intro id s
  simp [Table.get?_emptyCollection]

theorem congr (h : Holds subs found p) (hpq : ∀ s, subs.get? s.id = some s → (p s ↔ q s))
    (hown : OwnIds subs) : Holds subs found q := by
  intro id s
  rw [h id s]
  refine and_congr_right fun hget => hpq s ?_
  rwa [hown id s hget]

theorem unique {other : Table Subscription} (h : Holds subs found p) (ho : Holds subs other p) :
    found = other := by
  refine Table.ext_get? fun id => Option.ext fun s => ?_
  exact (h id s).trans (ho id s).symm

theorem own (h : Holds subs found p) (hown : OwnIds subs) : OwnIds found :=
  fun id s hget => hown id s ((h id s).mp hget).1

theorem mem_values (h : Holds subs found p) (hown : OwnIds subs) {s : Subscription} :
    s ∈ found.values ↔ subs.get? s.id = some s ∧ p s :=
  (h.own hown).mem_values.trans (h s.id s)

theorem ascending (h : Holds subs found p) (hown : OwnIds subs) :
    (found.values.map Subscription.id).Pairwise (· < ·) := by
  rw [(h.own hown).map_id_values]
  exact found.keys_ascending

theorem insert (h : Holds subs found p) (hown : OwnIds subs) {s : Subscription}
    (hs : subs.get? s.id = some s) : Holds subs (found.insert s.id s) fun t => p t ∨ t = s := by
  intro id t
  rw [Table.get?_insert]
  by_cases hid : id = s.id
  · subst hid
    rw [if_pos rfl, hs]
    constructor
    · rintro ht
      cases ht
      exact ⟨rfl, .inr rfl⟩
    · exact And.left
  · rw [if_neg hid, h id t]
    refine and_congr_right fun hget => (or_iff_left ?_).symm
    rintro rfl
    exact hid (hown id t hget).symm

/-- Each step adds what it finds. -/
theorem foldl {β : Type} {f : Table Subscription → β → Table Subscription}
    {r : β → Subscription → Prop} (xs : List β)
    (hstep : ∀ {found p} x, x ∈ xs → Holds subs found p →
      Holds subs (f found x) fun s => p s ∨ r x s)
    (h : Holds subs found p) : Holds subs (xs.foldl f found) fun s => p s ∨ ∃ x ∈ xs, r x s := by
  induction xs generalizing found p with
  | nil => simpa using h
  | cons x rest ih =>
    have hrest := ih (fun y hy => hstep y (List.mem_cons_of_mem _ hy))
      (hstep x List.mem_cons_self h)
    simpa only [List.foldl_cons, List.mem_cons, exists_eq_or_imp, or_assoc] using hrest

theorem gather (h : Holds subs found p) (hown : OwnIds subs) {ss : List Subscription}
    (hss : Stored subs ss) : Holds subs (Matcher.gather found ss) fun s => p s ∨ s ∈ ss := by
  have hall := h.foldl (f := fun found s => found.insert s.id s) (r := fun s t => t = s) ss
    fun s hs hf => hf.insert hown (hss s hs)
  exact hall.congr (fun s _ => by simp) hown

/-- A subscription that is there already stays as it is, and so do those that fail the test. -/
theorem collect (h : Holds subs found p) (hown : OwnIds subs) {ss : List Subscription}
    (hss : Stored subs ss) (keep : Subscription → Bool) :
    Holds subs (Matcher.collect found keep ss) fun s => p s ∨ s ∈ ss ∧ keep s = true := by
  have hall := h.foldl (r := fun s t => t = s ∧ keep s = true)
    (f := fun found s =>
      if !found.contains s.id && keep s then found.insert s.id s else found) ss
    fun {found p} s hs hf => by
      cases hkeep : keep s with
      | false => simpa using hf
      | true =>
        cases hthere : found.contains s.id with
        | false => simpa using hf.insert hown (hss s hs)
        | true =>
          obtain ⟨t, ht⟩ := Table.contains_iff.mp hthere
          obtain ⟨hget, hp⟩ := (hf s.id t).mp ht
          obtain rfl : t = s := Option.some.inj (hget.symm.trans (hss s hs))
          refine hf.congr (fun u _ => ?_) hown
          constructor
          · exact .inl
          · intro hu
            rcases hu with hu | ⟨rfl, -⟩
            · exact hu
            · exact hp
  refine hall.congr (fun s _ => or_congr_right ?_) hown
  constructor
  · intro hfound
    obtain ⟨t, ht, rfl, hkeep⟩ := hfound
    exact ⟨ht, hkeep⟩
  · intro hkept
    obtain ⟨hs, hkeep⟩ := hkept
    exact ⟨s, hs, rfl, hkeep⟩

end Holds
end TransitPush
