import TransitPush.Proofs.Table
import TransitPush.Proofs.Text.Trim
import TransitPush.Registry
/-!
# Subscriptions fit to be stored

What the registry stores is in normal form and passes its checks. Both together come to a few facts
about the subscription alone, which count of failed pushes and identifier do not touch.

* `Subscription.WellFormed`: these facts. What passes the checks after it was brought into normal form
  has them (`wellFormed_of_check`).
* `Subscription.NamedByReferences`: the name is the reserved one that the two references make.
* `reservedName_normalized`, `hasReservedName_reservedName`: a reserved name is in normal form and is
  recognised as one.
-/
namespace TransitPush

/-! ## Reserved names -/

/-- A reserved name has no blanks around it if its references have none. -/
theorem reservedName_normalized {requestor client : String} (hr : Text.trim requestor = requestor)
    (hc : Text.trim client = client) :
    Text.trim (reservedName requestor client) = reservedName requestor client := by
  have hstart : Text.trim reservedStart = reservedStart := by decide
  have hdash : Text.trim "-" = "-" := by decide
  exact Text.trim_append (Text.trim_append (Text.trim_append (Text.trim_append hstart hdash) hr)
    hdash) hc

namespace Subscription

variable {s : Subscription}

theorem hasReservedName_iff :
    s.hasReservedName = true ↔ reservedStart.toList <+: s.name.toList :=
  List.isPrefixOf_iff_prefix

theorem hasReservedName_congr {t : Subscription} (h : s.name = t.name) :
    s.hasReservedName = t.hasReservedName := by
  unfold hasReservedName
  rw [h]

theorem hasReservedName_reservedName {requestor client : String}
    (h : s.name = reservedName requestor client) : s.hasReservedName = true := by
  rw [hasReservedName_iff, h]
  simp [reservedName, List.append_assoc]

/-! ## References -/

/-- The two references are there, not blank, and taken without the blanks around them. -/
theorem references?_eq_some {requestor client : String} :
    s.references? = some (requestor, client) ↔
      ∃ r c, s.requestor = some r ∧ s.clientRef = some c ∧ Text.trim r ≠ "" ∧ Text.trim c ≠ "" ∧
        requestor = Text.trim r ∧ client = Text.trim c := by
  unfold references?
  constructor
  · intro h
    split at h
    · rename_i requestor' client' hr hc
      obtain ⟨r, hrequestor, rfl⟩ := Option.map_eq_some_iff.mp hr
      obtain ⟨c, hclient, rfl⟩ := Option.map_eq_some_iff.mp hc
      split at h
      · cases h
      · rename_i hsome
        rw [not_or] at hsome
        cases h
        exact ⟨r, c, hrequestor, hclient, hsome.1, hsome.2, rfl, rfl⟩
    · cases h
  · rintro ⟨r, c, hr, hc, hr', hc', rfl, rfl⟩
    rw [hr, hc]
    exact if_neg (not_or.mpr ⟨hr', hc'⟩)

theorem references?_trimmed {requestor client : String}
    (h : s.references? = some (requestor, client)) :
    Text.trim requestor = requestor ∧ Text.trim client = client := by
  obtain ⟨r, c, -, -, -, -, rfl, rfl⟩ := references?_eq_some.mp h
  exact ⟨Text.trim_trim, Text.trim_trim⟩

/-- The subscription is one of a subscriber by envelope, under the name that its references make. -/
structure NamedByReferences (s : Subscription) : Prop where
  enveloped : s.enveloped = true
  named : ∃ requestor client, s.requestor = some requestor ∧ s.clientRef = some client ∧
    Text.trim requestor ≠ "" ∧ Text.trim client ≠ "" ∧
    s.name = reservedName (Text.trim requestor) (Text.trim client)

/-! ## Normal form and checks -/

def criteria (s : Subscription) : List RefSet :=
  [s.fromStops, s.toStops, s.lineRefs, s.vehicleRefs, s.codespaces]

/-- No blanks are around the name, the address and the references, and no reference is blank. There is
an address, there are stops to travel from exactly if there are stops to travel to, and there are
stops, a line or a codespace. -/
structure WellFormed (s : Subscription) : Prop where
  name : Text.trim s.name = s.name
  address : Text.trim s.address = s.address
  refs : ∀ rs ∈ s.criteria, ∀ ref ∈ rs, Text.trim ref = ref ∧ ref ≠ ""
  addressed : s.address ≠ ""
  stopPair : s.fromStops.isEmpty = s.toStops.isEmpty
  wanted : (s.fromStops.isEmpty = false ∧ s.toStops.isEmpty = false) ∨ s.lineRefs.isEmpty = false ∨
    s.codespaces.isEmpty = false

/-- Identifier and count of failed pushes do not matter. -/
theorem WellFormed.renumbered (h : s.WellFormed) (id : SubscriptionId) (failures : UInt32) :
    { s with id, failedPushes := failures }.WellFormed :=
  ⟨h.name, h.address, h.refs, h.addressed, h.stopPair, h.wanted⟩

theorem mem_trimmedRefs {rs : RefSet} {ref : String} :
    ref ∈ trimmedRefs rs ↔ ref ≠ "" ∧ ∃ r ∈ rs, Text.trim r = ref := by
  simp only [trimmedRefs, RefSet.mem_ofList, List.mem_filter, List.mem_map, RefSet.mem_toList,
    decide_eq_true_eq, and_comm]

theorem of_check_ok {allowReserved : Bool} (h : s.check allowReserved = .ok ()) :
    s.address ≠ "" ∧
      (s.hasNoStops = false ∨ s.codespaces.isEmpty = false ∨ s.lineRefs.isEmpty = false) ∧
      s.fromStops.isEmpty = s.toStops.isEmpty ∧
      (allowReserved = false → s.hasReservedName = false) := by
  unfold check at h
  split at h
  · cases h
  · rename_i haddress
    split at h
    · cases h
    · rename_i hwanted
      split at h
      · cases h
      · rename_i hpair
        split at h
        · cases h
        · rename_i hname
          simp only [Bool.and_eq_true, not_and_or, Bool.not_eq_true, or_assoc] at hwanted
          refine ⟨haddress, hwanted, Decidable.not_not.mp hpair, ?_⟩
          rintro rfl
          simpa using hname

theorem wellFormed_of_check {allowReserved : Bool} (h : s.normalized.check allowReserved = .ok ()) :
    s.normalized.WellFormed := by
  obtain ⟨haddress, hwanted, hpair, -⟩ := of_check_ok h
  refine ⟨Text.trim_trim, Text.trim_trim, ?_, haddress, hpair, ?_⟩
  · intro rs hrs ref href
    have htrimmed : ∀ set : RefSet, ref ∈ trimmedRefs set → Text.trim ref = ref ∧ ref ≠ "" := by
      intro set hmem
      obtain ⟨hne, r, -, rfl⟩ := mem_trimmedRefs.mp hmem
      exact ⟨Text.trim_trim, hne⟩
    simp only [criteria, normalized, List.mem_cons, List.not_mem_nil, or_false] at hrs
    rcases hrs with rfl | rfl | rfl | rfl | rfl <;> exact htrimmed _ href
  · rcases hwanted with hstops | hcodespaces | hlines
    · left
      rw [hasNoStops, ← hpair, Bool.and_self] at hstops
      exact ⟨hstops, hpair ▸ hstops⟩
    · exact .inr (.inr hcodespaces)
    · exact .inr (.inl hlines)

end Subscription
end TransitPush
