import TransitPush.Feed.Version
import TransitPush.Proofs.Text.Ends
/-!
# Numbers and versions that are written and read

* `natBelow?_toDigits`: a number below a bound is read back from its digits.
* `Version.ofText?_toText`: a version is read back from its text.
-/
namespace TransitPush

namespace Text

theorem isDigit_toDigits {n : Nat} : ∀ c ∈ Nat.toDigits 10 n, c.isDigit = true :=
  fun _ hc => Nat.isDigit_of_mem_toDigits (by decide) (by decide) hc

theorem valueOf_toDigits (n : Nat) : valueOf 10 decimalDigit (Nat.toDigits 10 n) = n := by
  have h : Nat.ofDigitChars 10 (Nat.toDigits 10 n) 0 = n :=
    Nat.ofDigitChars_toDigits (by decide) (by decide)
  rw [Nat.ofDigitChars_eq_foldl] at h
  exact h

theorem toDigits_inj {m n : Nat} (h : Nat.toDigits 10 m = Nat.toDigits 10 n) : m = n := by
  rw [← valueOf_toDigits m, h, valueOf_toDigits]

/-- A number is read back from its digits. -/
theorem natBelow?_toDigits {n bound : Nat} (h : n < bound) :
    natBelow? bound (Nat.toDigits 10 n) = some n := by
  have hall : (Nat.toDigits 10 n).all Char.isDigit = true := List.all_eq_true.mpr isDigit_toDigits
  have hvalue := valueOf_toDigits n
  obtain ⟨d, ds, hdigits⟩ := List.exists_cons_of_ne_nil (Nat.toDigits_ne_nil (n := n) (b := 10))
  have hplus : d ≠ '+' := by
    rintro rfl
    have hdigit := isDigit_toDigits (n := n) '+' (hdigits ▸ List.mem_cons_self)
    exact absurd hdigit (by decide)
  rw [hdigits] at hall hvalue ⊢
  have hnumber : natBelow? bound (d :: ds) =
      if !(d :: ds).isEmpty && (d :: ds).all Char.isDigit &&
        valueOf 10 decimalDigit (d :: ds) < bound then
        some (valueOf 10 decimalDigit (d :: ds)) else none := by
    unfold natBelow?
    split
    · rename_i heq
      exact absurd (List.cons.inj heq).1 hplus
    · rfl
  rw [hnumber, hvalue, hall, if_pos (by simp [h])]

end Text

namespace Version

theorem number?_toDigits (n : UInt8) : number? (Nat.toDigits 10 n.toNat) = some n := by
  rw [number?, Text.natBelow?_toDigits n.toNat_lt]
  exact congrArg some UInt8.ofNat_toNat

/-- A version is read back from its text. -/
theorem ofText?_toText (v : Version) : ofText? v.toText = .ok v := by
  have htext : v.toText.toList =
      Nat.toDigits 10 v.major.toNat ++ '.' :: Nat.toDigits 10 v.minor.toNat := by
    have hdot : ".".toList = ['.'] := rfl
    simp only [toText, Nat.toString_eq_ofList_toDigits, String.toList_append, String.toList_ofList,
      hdot, List.append_assoc, List.singleton_append]
  have hpoint : Ends (fun c => decide (c ≠ '.')) ('.' :: Nat.toDigits 10 v.minor.toNat) :=
    ends_cons (by decide)
  have hdigits : ∀ c ∈ Nat.toDigits 10 v.major.toNat, decide (c ≠ '.') = true := by
    intro c hc
    refine decide_eq_true ?_
    rintro rfl
    exact absurd (Text.isDigit_toDigits '.' hc) (by decide)
  simp only [ofText?, htext, takeWhile_append hpoint, dropWhile_append hpoint,
    List.takeWhile_eq_self_iff.mpr hdigits, List.dropWhile_eq_nil_iff.mpr hdigits, List.nil_append,
    number?_toDigits]

end Version
end TransitPush
