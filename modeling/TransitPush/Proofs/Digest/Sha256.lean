import TransitPush.Digest.Sha256
/-!
# The text of a digest

A digest has thirty-two bytes, whatever the message. As text it is two hexadecimal digits for each, from
which the bytes can be told.

* `Sha256.length_digest`, `Sha256.length_hexText`: how long a digest and its text are.
* `Sha256.mem_hexText`: only hexadecimal digits are in it.
* `Sha256.hexText_inj`: bytes with the same text are the same.
-/
namespace TransitPush.Sha256

theorem length_bytesOf (width n : Nat) : (bytesOf width n).length = width := by
  induction width generalizing n with
  | zero => rfl
  | succ width ih => rw [bytesOf, List.length_append, ih, List.length_singleton]

theorem length_digest (message : List UInt8) : (digest message).length = 32 := by
  simp [digest, length_bytesOf]

/-- The digest of a message of three bytes. -/
example : hexText (digest "abc".toUTF8.data.toList) =
    "ba7816bf8f01cfea414140de5dae2223b00361a396177a9cb410ff61f20015ad" := by
  decide +kernel

/-! ## Hexadecimal digits -/

theorem digitChar_inj : ∀ m < 16, ∀ n < 16, Nat.digitChar m = Nat.digitChar n → m = n := by
  decide

/-- The two digits of a byte. -/
theorem toList_hexText_cons (b : UInt8) (bs : List UInt8) : (hexText (b :: bs)).toList =
    Nat.digitChar (b.toNat / 16) :: Nat.digitChar (b.toNat % 16) :: (hexText bs).toList := by
  simp only [hexText, String.toList_ofList, List.flatMap_cons, List.cons_append, List.nil_append]

theorem high_lt (b : UInt8) : b.toNat / 16 < 16 :=
  Nat.div_lt_of_lt_mul b.toNat_lt

theorem low_lt (b : UInt8) : b.toNat % 16 < 16 :=
  Nat.mod_lt _ (by decide)

theorem length_hexText (bytes : List UInt8) : (hexText bytes).toList.length = 2 * bytes.length := by
  induction bytes with
  | nil => rfl
  | cons b bs ih =>
    rw [toList_hexText_cons, List.length_cons, List.length_cons, ih, List.length_cons]
    omega

theorem mem_hexText {bytes : List UInt8} {c : Char} (h : c ∈ (hexText bytes).toList) :
    ∃ n < 16, c = Nat.digitChar n := by
  induction bytes with
  | nil => cases h
  | cons b bs ih =>
    rw [toList_hexText_cons, List.mem_cons, List.mem_cons] at h
    obtain hhigh | hlow | hrest := h
    · exact ⟨_, high_lt b, hhigh⟩
    · exact ⟨_, low_lt b, hlow⟩
    · exact ih hrest

/-- Bytes with the same digits are the same. -/
theorem hexText_inj {as bs : List UInt8} (h : (hexText as).toList = (hexText bs).toList) :
    as = bs := by
  induction as generalizing bs with
  | nil =>
    cases bs with
    | nil => rfl
    | cons b bs =>
      rw [toList_hexText_cons] at h
      cases h
  | cons a as ih =>
    cases bs with
    | nil =>
      rw [toList_hexText_cons] at h
      cases h
    | cons b bs =>
      rw [toList_hexText_cons, toList_hexText_cons, List.cons.injEq, List.cons.injEq] at h
      obtain ⟨hhigh, hlow, hrest⟩ := h
      have hhigh := digitChar_inj _ (high_lt a) _ (high_lt b) hhigh
      have hlow := digitChar_inj _ (low_lt a) _ (low_lt b) hlow
      obtain rfl : a = b := UInt8.toNat_inj.mp (by omega)
      rw [ih hrest]

end TransitPush.Sha256
