import TransitPush.Proofs.Text.Joined
import TransitPush.Routing.Dedup
/-!
# Fingerprints

A fingerprint begins with the identifier of its subscription, up to the first underscore. As no
identifier has an underscore, fingerprints of different subscriptions never agree, whatever the
events.

* `toList_fingerprint_situation`, `toList_fingerprint_journey`, `toList_fingerprint_tooLarge`: what a
  fingerprint is made of.
* `id_eq_of_fingerprint_eq`: whose it is.
-/
namespace TransitPush

/-- The identifier has no underscore, which divides the parts of a fingerprint. -/
def PlainId (id : SubscriptionId) : Prop :=
  ¬ '_' ∈ id.toList

instance (id : SubscriptionId) : Decidable (PlainId id) :=
  inferInstanceAs (Decidable (¬ _))

/-- The digits of a version; none if there is none. -/
def versionDigits : Option UInt64 → List Char
  | some v => Nat.toDigits 10 v.toNat
  | none => []

section
variable {fresh : String} {id : SubscriptionId} {u : JourneyUpdate}

theorem toList_fingerprint_situation (fresh : String) (id : SubscriptionId) (s : Situation) :
    (fingerprint fresh id (.situation s)).toList =
      id.toList ++ '_' :: ((s.number.getD fresh).toList ++ '_' :: versionDigits s.version) := by
  cases hversion : s.version <;> simp [fingerprint, versionDigits, hversion]

theorem toList_fingerprint_journey {payload : ByteArray}
    (h : Event.format.toPayload (.journey u) = .ok payload) :
    (fingerprint fresh id (.journey u)).toList = id.toList ++ '_' :: (Nat.toDigits 10 payload.size ++
      '_' :: (Sha256.hexText (Sha256.digest payload.data.toList)).toList) := by
  simp [fingerprint, h]

theorem toList_fingerprint_tooLarge {err : CodecError}
    (h : Event.format.toPayload (.journey u) = .error err) :
    (fingerprint fresh id (.journey u)).toList = id.toList ++ '_' :: fresh.toList := by
  simp [fingerprint, h]

end

theorem fingerprint_starts (fresh : String) (id : SubscriptionId) (e : Event) :
    ∃ rest, (fingerprint fresh id e).toList = id.toList ++ '_' :: rest := by
  cases e with
  | situation s => exact ⟨_, toList_fingerprint_situation fresh id s⟩
  | journey u =>
    cases hpayload : Event.format.toPayload (.journey u) with
    | ok payload => exact ⟨_, toList_fingerprint_journey hpayload⟩
    | error err => exact ⟨_, toList_fingerprint_tooLarge hpayload⟩

/-- What stands before the first underscore of a fingerprint is the identifier. -/
theorem id_eq_of_fingerprint_eq {i j : SubscriptionId} (hi : PlainId i) (hj : PlainId j)
    {a b : String} {e f : Event} (h : fingerprint a i e = fingerprint b j f) : i = j := by
  obtain ⟨rest, hrest⟩ := fingerprint_starts a i e
  obtain ⟨rest', hrest'⟩ := fingerprint_starts b j f
  rw [h, hrest'] at hrest
  exact String.toList_inj.mp (eq_of_append_first_mark hj hi hrest).1.symm

end TransitPush
