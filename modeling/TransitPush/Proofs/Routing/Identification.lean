import TransitPush.Proofs.Digest.Sha256
import TransitPush.Proofs.Feed.Distinct
import TransitPush.Proofs.Routing.Fingerprint
/-!
# What fingerprints tell apart

A fingerprint is three texts joined with underscores: the identifier, then the number and the version of
a situation, or the size and the digest of a journey's document. Numbers are free texts with underscores
of their own. But no identifier has one, and neither has what comes last, so the first underscore and the
last one are those that divide the parts. A version has at most twenty digits and a digest sixty-four, so
the last part tells situations from journeys.

* `Event.Definite`: nothing of the fingerprint is drawn; `Event.definite_situation`,
  `Event.definite_journey`: of which events.
* `fingerprint_situations`, `fingerprint_journeys`, `fingerprint_kinds`: when fingerprints for one
  subscription agree.
* `fingerprint_identifies`: what two fingerprints that agree have in common.
-/
namespace TransitPush

/-! ## The last part -/

theorem not_mem_toDigits (n : Nat) : ¬ '_' ∈ Nat.toDigits 10 n :=
  fun h => absurd (Text.isDigit_toDigits '_' h) (by decide)

theorem not_mem_versionDigits (v : Option UInt64) : ¬ '_' ∈ versionDigits v := by
  cases v with
  | none => exact List.not_mem_nil
  | some v => exact not_mem_toDigits v.toNat

/-- No version is written without digits. -/
theorem versionDigits_inj {v w : Option UInt64} (h : versionDigits v = versionDigits w) : v = w := by
  cases v with
  | none =>
    cases w with
    | none => rfl
    | some w => exact absurd h.symm Nat.toDigits_ne_nil
  | some v =>
    cases w with
    | none => exact absurd h Nat.toDigits_ne_nil
    | some w => exact congrArg some (UInt64.toNat_inj.mp (Text.toDigits_inj h))

theorem length_versionDigits_le (v : Option UInt64) : (versionDigits v).length ≤ 20 := by
  cases v with
  | none => exact Nat.zero_le 20
  | some v =>
    refine (Nat.length_toDigits_le_iff (by decide) (by decide)).mpr ?_
    exact Nat.lt_trans v.toNat_lt (by decide)

namespace Sha256

theorem not_mem_hexText (bytes : List UInt8) : ¬ '_' ∈ (hexText bytes).toList := by
  have hdigit : ∀ n < 16, '_' ≠ Nat.digitChar n := by decide
  intro h
  obtain ⟨n, hn, hchar⟩ := mem_hexText h
  exact hdigit n hn hchar

/-- A digest is longer than any version. -/
theorem hexText_digest_ne (message : List UInt8) (v : Option UInt64) :
    versionDigits v ≠ (hexText (digest message)).toList := by
  intro h
  have hlength := congrArg List.length h
  have hversion := length_versionDigits_le v
  rw [length_hexText, length_digest] at hlength
  omega

end Sha256

/-! ## Fingerprints for one subscription -/

section
variable {a b : String} {i : SubscriptionId} {s t : Situation} {u v : JourneyUpdate}
  {p q : ByteArray}

/-- Two texts for one subscription agree if they do after the identifier. -/
theorem append_underscore_inj {x y : List Char} :
    i.toList ++ '_' :: x = i.toList ++ '_' :: y ↔ x = y := by
  rw [List.append_cancel_left_eq, List.cons.injEq, eq_self, true_and]

/-- The last underscore divides the number and the version. -/
theorem fingerprint_situations :
    fingerprint a i (.situation s) = fingerprint b i (.situation t) ↔
      s.number.getD a = t.number.getD b ∧ s.version = t.version := by
  rw [← String.toList_inj, toList_fingerprint_situation, toList_fingerprint_situation,
    append_underscore_inj]
  constructor
  · intro h
    obtain ⟨hnumber, hversion⟩ :=
      eq_of_append_last_mark (not_mem_versionDigits _) (not_mem_versionDigits _) h
    exact ⟨String.toList_inj.mp hnumber, versionDigits_inj hversion⟩
  · intro h
    rw [h.1, h.2]

theorem fingerprint_journeys (hp : Event.format.toPayload (.journey u) = .ok p)
    (hq : Event.format.toPayload (.journey v) = .ok q) :
    fingerprint a i (.journey u) = fingerprint b i (.journey v) ↔
      p.size = q.size ∧ Sha256.digest p.data.toList = Sha256.digest q.data.toList := by
  rw [← String.toList_inj, toList_fingerprint_journey hp, toList_fingerprint_journey hq,
    append_underscore_inj]
  constructor
  · intro h
    obtain ⟨hsize, hdigest⟩ :=
      eq_of_append_last_mark (Sha256.not_mem_hexText _) (Sha256.not_mem_hexText _) h
    exact ⟨Text.toDigits_inj hsize, Sha256.hexText_inj hdigest⟩
  · intro h
    rw [h.1, h.2]

/-- A situation has one underscore more after the identifier than a journey with a drawn name, and a
shorter last part than any other. -/
theorem fingerprint_kinds
    (h : (∃ p, Event.format.toPayload (.journey u) = .ok p) ∨ ¬ '_' ∈ b.toList) :
    fingerprint a i (.situation s) ≠ fingerprint b i (.journey u) := by
  rw [Ne, ← String.toList_inj, toList_fingerprint_situation]
  cases hpayload : Event.format.toPayload (.journey u) with
  | ok p =>
    rw [toList_fingerprint_journey hpayload, append_underscore_inj]
    intro hsame
    obtain ⟨-, hlast⟩ :=
      eq_of_append_last_mark (not_mem_versionDigits _) (Sha256.not_mem_hexText _) hsame
    exact Sha256.hexText_digest_ne _ _ hlast
  | error err =>
    rw [toList_fingerprint_tooLarge hpayload, append_underscore_inj]
    intro hsame
    obtain ⟨p, hp⟩ | hplain := h
    · rw [hpayload] at hp
      cases hp
    · rw [← hsame] at hplain
      exact hplain (List.mem_append_right _ List.mem_cons_self)

end

/-! ## Events whose fingerprint is their own -/

namespace Event

/-- Nothing of the fingerprint is drawn: it is the same whatever name is. -/
def Definite (e : Event) : Prop :=
  ∀ a b id, fingerprint a id e = fingerprint b id e

theorem definite_situation {s : Situation} :
    (situation s).Definite ↔ ∃ number, s.number = some number := by
  simp only [Definite, fingerprint_situations, and_true]
  cases s.number with
  | none =>
    refine ⟨fun h => absurd (h "a" "b" "") (by decide), fun h => ?_⟩
    obtain ⟨number, hnumber⟩ := h
    cases hnumber
  | some number => exact ⟨fun _ => ⟨number, rfl⟩, fun _ _ _ _ => rfl⟩

theorem definite_journey {u : JourneyUpdate} :
    (journey u).Definite ↔ ∃ payload, Event.format.toPayload (.journey u) = .ok payload := by
  unfold Definite
  constructor
  · intro h
    cases hpayload : Event.format.toPayload (.journey u) with
    | ok payload => exact ⟨payload, rfl⟩
    | error err =>
      have hsame := congrArg String.toList (h "a" "b" "")
      rw [toList_fingerprint_tooLarge hpayload, toList_fingerprint_tooLarge hpayload] at hsame
      exact absurd hsame (by decide)
  · intro h a b id
    obtain ⟨payload, hpayload⟩ := h
    exact (fingerprint_journeys hpayload hpayload).mpr ⟨rfl, rfl⟩

/-- What fingerprints say of events is the same of both: number and version of a situation, size and
digest of what is written for a journey. -/
inductive SameMark : Event → Event → Prop
  | situations {s t : Situation} (number : s.number = t.number) (version : s.version = t.version) :
    SameMark (.situation s) (.situation t)
  | journeys {u v : JourneyUpdate} {p q : ByteArray}
    (first : Event.format.toPayload (.journey u) = .ok p)
    (second : Event.format.toPayload (.journey v) = .ok q) (size : p.size = q.size)
    (digest : Sha256.digest p.data.toList = Sha256.digest q.data.toList) :
    SameMark (.journey u) (.journey v)

/-- Journeys with the same payload are the same. -/
theorem journey_eq_of_toPayload {u v : JourneyUpdate} {payload : ByteArray}
    (hu : Event.format.toPayload (.journey u) = .ok payload)
    (hv : Event.format.toPayload (.journey v) = .ok payload) : u = v := by
  have hback : ∀ w, Event.format.toPayload (.journey w) = .ok payload →
      Event.format.ofPayload payload = .ok (.journey w) := fun w hw =>
    Json.Format.ofPayload_of_toPayload (Event.returns trivial) (readsBack_journey w) hw
  exact Event.journey.inj (Except.ok.inj ((hback u hu).symm.trans (hback v hv)))

end Event

/-- Fingerprints for one subscription, of which nothing is drawn, agree if they say the same. -/
theorem fingerprint_definite {a b : String} {i : SubscriptionId} {e f : Event} (he : e.Definite)
    (hf : f.Definite) : fingerprint a i e = fingerprint b i f ↔ e.SameMark f := by
  cases e with
  | situation s =>
    cases f with
    | situation t =>
      obtain ⟨m, hm⟩ := Event.definite_situation.mp he
      obtain ⟨n, hn⟩ := Event.definite_situation.mp hf
      rw [fingerprint_situations, hm, hn, Option.getD_some, Option.getD_some]
      constructor
      · intro h
        exact .situations (by rw [hm, hn, h.1]) h.2
      · intro h
        cases h with
        | situations hnumber hversion =>
          rw [hm, hn] at hnumber
          exact ⟨Option.some.inj hnumber, hversion⟩
    | journey v =>
      have hne := @fingerprint_kinds a b i s v (.inl (Event.definite_journey.mp hf))
      exact ⟨fun h => absurd h hne, nofun⟩
  | journey u =>
    cases f with
    | situation t =>
      have hne := @fingerprint_kinds b a i t u (.inl (Event.definite_journey.mp he))
      exact ⟨fun h => absurd h.symm hne, nofun⟩
    | journey v =>
      obtain ⟨p, hp⟩ := Event.definite_journey.mp he
      obtain ⟨q, hq⟩ := Event.definite_journey.mp hf
      rw [fingerprint_journeys hp hq]
      constructor
      · intro h
        exact .journeys hp hq h.1 h.2
      · intro h
        cases h with
        | journeys hp' hq' hsize hdigest =>
          cases hp.symm.trans hp'
          cases hq.symm.trans hq'
          exact ⟨hsize, hdigest⟩

/-- **Fingerprints identify pushes.** For subscriptions without underscores in their identifiers: two
fingerprints of which nothing is drawn are the same exactly if they are for the same subscription and for
situations of the same number and version, or for journeys whose documents have the same size and digest.
A situation and a journey never have the same, unless a name with an underscore is drawn for a journey
that is too large. Journeys with the same document are the same, so fingerprints of different journeys
agree only if their documents are different messages of equal size with the same digest. -/
theorem fingerprint_identifies {i j : SubscriptionId} (hi : PlainId i) (hj : PlainId j)
    (a b : String) :
    (∀ e f : Event, e.Definite → f.Definite →
      (fingerprint a i e = fingerprint b j f ↔ i = j ∧ e.SameMark f)) ∧
    (∀ s u, (Event.journey u).Definite ∨ ¬ '_' ∈ b.toList →
      fingerprint a i (.situation s) ≠ fingerprint b j (.journey u)) ∧
    (∀ u v, Event.format.encode (.journey u) = Event.format.encode (.journey v) → u = v) ∧
    ∀ u v, (Event.journey u).Definite → (Event.journey v).Definite → u ≠ v →
      fingerprint a i (.journey u) = fingerprint b j (.journey v) →
      ∃ p q : ByteArray, Event.format.toPayload (.journey u) = .ok p ∧
        Event.format.toPayload (.journey v) = .ok q ∧ p ≠ q ∧ p.size = q.size ∧
        Sha256.digest p.data.toList = Sha256.digest q.data.toList := by
  have hkinds : ∀ s u, (Event.journey u).Definite ∨ ¬ '_' ∈ b.toList →
      fingerprint a i (.situation s) ≠ fingerprint b j (.journey u) := by
    intro s u hu hsame
    obtain rfl := id_eq_of_fingerprint_eq hi hj hsame
    exact fingerprint_kinds (hu.imp_left Event.definite_journey.mp) hsame
  have hmarks : ∀ e f : Event, e.Definite → f.Definite →
      (fingerprint a i e = fingerprint b j f ↔ i = j ∧ e.SameMark f) := by
    intro e f he hf
    constructor
    · intro hsame
      obtain rfl := id_eq_of_fingerprint_eq hi hj hsame
      exact ⟨rfl, (fingerprint_definite he hf).mp hsame⟩
    · intro hboth
      obtain ⟨rfl, hmark⟩ := hboth
      exact (fingerprint_definite he hf).mpr hmark
  refine ⟨hmarks, hkinds, fun u v => Event.encode_journey_inj, fun u v hu hv hne hsame => ?_⟩
  obtain ⟨-, hmark⟩ := (hmarks _ _ hu hv).mp hsame
  cases hmark with
  | @journeys _ _ p q hp hq hsize hdigest =>
    refine ⟨p, q, hp, hq, fun hpq => ?_, hsize, hdigest⟩
    rw [← hpq] at hq
    exact hne (Event.journey_eq_of_toPayload hp hq)

/-- A number that ends like another one with its version, another report of the same version, and a
journey. -/
theorem fingerprint_identifies_underscores :
    let s : Situation := { Situation.numbered "1_2" 1 with version := none }
    let t := Situation.numbered "1" 2
    let t' := { t with participant := some "RUT" }
    let u := JourneyUpdate.dated "RUT:Line:1" "RUT:Journey:1"
    PlainId "i" ∧ PlainId "ii" ∧ (Event.situation s).Definite ∧ (Event.situation t).Definite ∧
    (Event.situation t').Definite ∧ (Event.journey u).Definite ∧
    fingerprint "" "i" (.situation s) ≠ fingerprint "" "i" (.situation t) ∧
    fingerprint "" "i" (.situation t) = fingerprint "" "i" (.situation t') ∧
    fingerprint "" "i" (.situation t) ≠ fingerprint "" "ii" (.journey u) := by
  intro s t t' u
  have hi : PlainId "i" := by decide
  have hii : PlainId "ii" := by decide
  have hs : (Event.situation s).Definite := Event.definite_situation.mpr ⟨_, rfl⟩
  have ht : (Event.situation t).Definite := Event.definite_situation.mpr ⟨_, rfl⟩
  have ht' : (Event.situation t').Definite := Event.definite_situation.mpr ⟨_, rfl⟩
  have hpayload := Event.format.toPayload_of_size (x := .journey u) (by decide +kernel)
  have hu : (Event.journey u).Definite := Event.definite_journey.mpr ⟨_, hpayload⟩
  obtain ⟨hmarks, -⟩ := fingerprint_identifies hi hi "" ""
  obtain ⟨-, hkinds, -⟩ := fingerprint_identifies hi hii "" ""
  refine ⟨hi, hii, hs, ht, ht', hu, fun h => ?_, (hmarks _ _ ht ht').mpr ⟨rfl, .situations rfl rfl⟩,
    hkinds t u (.inl hu)⟩
  obtain ⟨-, hmark⟩ := (hmarks _ _ hs ht).mp h
  cases hmark with
  | situations hnumber _ => exact absurd hnumber (by decide)

end TransitPush
