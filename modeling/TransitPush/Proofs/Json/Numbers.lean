import TransitPush.Json.Printer
import TransitPush.Json.Token
import TransitPush.Proofs.Text.Ends
/-!
# Numbers that are written and read

A number that is written is scanned up to its end, whatever follows it, as long as that does not go on
with the number. A whole number stands for itself. A double does if the text of it alone is read back
(`Double.ReadsBack`), which is taken as a hypothesis where it is needed: reading rounds twice.

* `scanNumber_append`: what is scanned to its end stays what it is with something behind it.
* `readNumber_whole`: a whole number is read back.
* `scanToken_number`: a number that is read back alone is a token in front of anything that ends it.
-/
namespace TransitPush

namespace Json

/-! ## Scanning with something behind -/

/-- A number goes on with a digit, a point or the letter of an exponent. -/
def goesOn (c : UInt8) : Bool :=
  isDigit c || c = 0x2E || c = 0x65 || c = 0x45

section
variable {s t r : List UInt8}

theorem ends_digits (h : Ends goesOn r) : Ends isDigit r :=
  h.mono fun c hc => by simp [goesOn, hc]

theorem scanExponent_append {e : Int} (hs : scanExponent s = .ok (e, [])) (h : Ends goesOn r) :
    scanExponent (s ++ r) = .ok (e, r) := by
  cases s with
  | nil => cases hs
  | cons c s =>
    unfold scanExponent at hs ⊢
    simp only [List.cons_append] at hs ⊢
    -- with either sign and with none, the digits are the same and come to the end of `s`
    by_cases hminus : c = 0x2D
    case' pos => simp only [if_pos hminus] at hs ⊢; generalize s = u at hs ⊢
    case' neg => by_cases hplus : c = 0x2B
    case' pos => simp only [if_neg hminus, if_pos hplus] at hs ⊢; generalize s = u at hs ⊢
    case' neg =>
      simp only [if_neg hminus, if_neg hplus] at hs ⊢
      rw [← List.cons_append]
      generalize c :: s = u at hs ⊢
    all_goals
      rw [takeWhile_append (ends_digits h), dropWhile_append (ends_digits h)]
      cases hds : u.takeWhile isDigit <;> cases hu : u.dropWhile isDigit <;> rw [hds, hu] at hs <;>
        cases hs
      rfl

theorem scanPower_append {e : Option Int} (hs : scanPower s = .ok (e, [])) (h : Ends goesOn r) :
    scanPower (s ++ r) = .ok (e, r) := by
  cases s with
  | nil =>
    cases hs
    cases r with
    | nil => rfl
    | cons c r =>
      have hc := h c rfl
      simp only [goesOn, Bool.or_eq_false_iff] at hc
      simp only [List.nil_append, scanPower, hc.1.2, hc.2, Bool.or_self, Bool.false_eq_true, if_false]
  | cons c s =>
    simp only [List.cons_append, scanPower] at hs ⊢
    split at hs
    · rename_i hletter
      rw [if_pos hletter]
      cases hexp : scanExponent s with
      | error b =>
        rw [hexp] at hs
        cases hs
      | ok p =>
        obtain ⟨e, r⟩ := p
        rw [hexp] at hs
        cases hs
        rw [scanExponent_append hexp h]
        rfl
    · cases hs

theorem scanFraction_append {f : Option (List UInt8)} (hs : scanFraction s = .ok (f, t))
    (h : Ends goesOn r) : scanFraction (s ++ r) = .ok (f, t ++ r) := by
  cases s with
  | nil =>
    cases hs
    cases r with
    | nil => rfl
    | cons c r =>
      have hc := h c rfl
      simp only [goesOn, Bool.or_eq_false_iff, decide_eq_false_iff_not] at hc
      simp only [List.nil_append, scanFraction, if_neg hc.1.1.2]
  | cons c s =>
    simp only [List.cons_append, scanFraction] at hs ⊢
    split at hs
    · rename_i hpoint
      rw [if_pos hpoint, takeWhile_append (ends_digits h), dropWhile_append (ends_digits h)]
      split at hs
      · cases hs
      · cases hs
      · rename_i hnil hcons
        cases hds : s.takeWhile isDigit with
        | nil =>
          cases hr : s.dropWhile isDigit with
          | nil => exact absurd hr (hnil hds)
          | cons d r => exact absurd hr (hcons d r hds)
        | cons d ds =>
          rw [hds] at hs
          cases hs
          rfl
    · rename_i hother
      cases hs
      rw [if_neg hother]
      rfl

/-- A number that is scanned to the end of a text is the same in front of anything else that does not
go on with it. -/
theorem scanNumber_append {negative : Bool} {l : Literal} (hs : scanNumber negative s = .ok (l, []))
    (h : Ends goesOn r) : scanNumber negative (s ++ r) = .ok (l, r) := by
  unfold scanNumber at hs ⊢
  rw [takeWhile_append (ends_digits h), dropWhile_append (ends_digits h)]
  cases hds : s.takeWhile isDigit with
  | nil =>
    rw [hds] at hs
    cases hu : s.dropWhile isDigit <;> rw [hu] at hs <;> cases hs
  | cons d ds =>
    rw [hds] at hs
    simp only at hs ⊢
    split at hs
    · cases hs
    · rename_i hzero
      rw [if_neg hzero]
      cases hfraction : scanFraction (s.dropWhile isDigit) with
      | error b =>
        rw [hfraction] at hs
        cases hs
      | ok p =>
        obtain ⟨fraction, t⟩ := p
        rw [hfraction] at hs
        rw [scanFraction_append hfraction h]
        cases hpower : scanPower t with
        | error b =>
          simp only [hpower] at hs
          cases hs
        | ok p =>
          obtain ⟨power, t'⟩ := p
          simp only [hpower] at hs ⊢
          cases hs
          rw [scanPower_append hpower h]
          rfl

end

/-! ## The number that a text is -/

/-- The number that a text stands for, if the text is a number and nothing else. -/
def readNumber? (s : List UInt8) : Option Number :=
  let scan := match s with
    | c :: r => if c = 0x2D then scanNumber true r else scanNumber false s
    | [] => scanNumber false []
  match scan with
  | .ok (l, []) => l.number?
  | _ => none

theorem scanNumber_of_read {s : List UInt8} {n : Number} (h : readNumber? s = some n) :
    ∃ c r l, s = c :: r ∧ Literal.number? l = some n ∧
      (c = 0x2D ∧ scanNumber true r = .ok (l, []) ∨
        isDigit c = true ∧ scanNumber false (c :: r) = .ok (l, [])) := by
  unfold readNumber? at h
  cases s with
  | nil => cases h
  | cons c r =>
    simp only at h
    split at h
    · rename_i l hscan
      split at hscan
      · rename_i hminus
        exact ⟨c, r, l, rfl, h, .inl ⟨hminus, hscan⟩⟩
      · refine ⟨c, r, l, rfl, h, .inr ⟨?_, hscan⟩⟩
        unfold scanNumber at hscan
        rw [List.takeWhile_cons, List.dropWhile_cons] at hscan
        cases hdigit : isDigit c with
        | true => rfl
        | false =>
          rw [hdigit] at hscan
          cases hscan
    · cases h

/-- A number that is read by itself is one token in front of anything that does not go on with it. -/
theorem scanToken_number {s r : List UInt8} {n : Number} (h : readNumber? s = some n)
    (hr : Ends goesOn r) : ∃ c t, s = c :: t ∧ isSpace c = false ∧
      scanToken c (t ++ r) = .ok (.number (.ok n), r) := by
  obtain ⟨c, t, l, rfl, hnumber, ⟨rfl, hscan⟩ | ⟨hdigit, hscan⟩⟩ := scanNumber_of_read h
  · refine ⟨_, t, rfl, rfl, ?_⟩
    show numberToken (scanNumber true (t ++ r)) = _
    rw [scanNumber_append hscan hr]
    simp only [numberToken, Except.map, hnumber]
  · have hne : ∀ d, isDigit d = false → c ≠ d := by
      rintro d hd rfl
      rw [hdigit] at hd
      cases hd
    have hspace : isSpace c = false := by
      simp [isSpace, hne 0x20 rfl, hne 0x09 rfl, hne 0x0A rfl, hne 0x0D rfl]
    have hpunctuation : punctuation? c = none := by
      simp [punctuation?, hne 0x5B rfl, hne 0x5D rfl, hne 0x7B rfl, hne 0x7D rfl, hne 0x2C rfl,
        hne 0x3A rfl]
    have hword : word? c = none := by
      simp [word?, hne 0x6E rfl, hne 0x74 rfl, hne 0x66 rfl]
    refine ⟨c, t, rfl, hspace, ?_⟩
    rw [scanToken, hpunctuation, hword]
    simp only
    rw [if_neg (hne 0x22 rfl), if_neg (hne 0x2D rfl), if_pos hdigit, ← List.cons_append,
      scanNumber_append hscan hr]
    simp only [numberToken, Except.map, hnumber]

/-! ## Whole numbers -/

theorem isDigit_toUInt8 {c : Char} (h : c.isDigit = true) :
    isDigit c.toNat.toUInt8 = true ∧ digitValue c.toNat.toUInt8 = c.toNat - 48 := by
  have hrange : 48 ≤ c.toNat ∧ c.toNat ≤ 57 := by
    simp only [Char.isDigit, Bool.and_eq_true, decide_eq_true_eq] at h
    exact h
  have hbyte : (c.toNat.toUInt8).toNat = c.toNat := by
    rw [Nat.toUInt8, UInt8.toNat_ofNat']
    omega
  refine ⟨?_, by rw [digitValue, hbyte]⟩
  simp only [isDigit, Bool.and_eq_true, decide_eq_true_eq, UInt8.le_iff_toNat_le, hbyte]
  exact hrange

/-- A number in decimal digits begins with zero only if it is zero. -/
theorem head?_toDigits {n : Nat} (hn : 0 < n) : ∀ c ∈ (Nat.toDigits 10 n).head?, c ≠ '0' := by
  induction n using Nat.strongRecOn with
  | ind n ih =>
    rw [Nat.toDigits_eq_if (by decide)]
    split
    · rename_i hlt
      have hdigit : ∀ k < 10, 0 < k → Nat.digitChar k ≠ '0' := by decide
      simpa using hdigit n hlt hn
    · rw [List.head?_append, List.head?_eq_some_head Nat.toDigits_ne_nil]
      simpa using ih (n / 10) (by omega) (by omega) _ (List.head?_eq_some_head Nat.toDigits_ne_nil)

theorem digits_toDigits (n : Nat) : ∀ b ∈ ascii (Nat.toDigits 10 n), isDigit b = true := by
  intro b hb
  obtain ⟨c, hc, rfl⟩ := List.mem_map.mp hb
  exact (isDigit_toUInt8 (Nat.isDigit_of_mem_toDigits (by decide) (by decide) hc)).1

/-- What further digits make of a number is not less than the number. -/
theorem le_ofDigitChars (cs : List Char) (s : Nat) : s ≤ Nat.ofDigitChars 10 cs s := by
  induction cs generalizing s with
  | nil => exact Nat.le_refl s
  | cons c cs ih =>
    rw [Nat.ofDigitChars_cons]
    have := ih (10 * s + (c.toNat - '0'.toNat))
    omega

theorem significand_ofDigitChars {cs : List Char} {s : Nat} (hdigits : ∀ c ∈ cs, c.isDigit = true)
    (hfits : Nat.ofDigitChars 10 cs s < UInt64.size) :
    significand s (ascii cs) = (Nat.ofDigitChars 10 cs s, []) := by
  induction cs generalizing s with
  | nil => rfl
  | cons c cs ih =>
    obtain ⟨hc, hcs⟩ := List.forall_mem_cons.mp hdigits
    rw [Nat.ofDigitChars_cons] at hfits ⊢
    have hnext : 10 * s + digitValue c.toNat.toUInt8 = 10 * s + (c.toNat - '0'.toNat) := by
      rw [(isDigit_toUInt8 hc).2]
      rfl
    have hlt := Nat.lt_of_le_of_lt (le_ofDigitChars cs _) hfits
    rw [show ascii (c :: cs) = c.toNat.toUInt8 :: ascii cs from rfl, significand]
    simp only [hnext]
    rw [if_pos hlt]
    exact ih hcs hfits

/-- A number below `2 ^ 64` is taken up digit by digit. -/
theorem significand_toDigits {n : Nat} (hn : n < UInt64.size) :
    significand 0 (ascii (Nat.toDigits 10 n)) = (n, []) := by
  have hvalue : Nat.ofDigitChars 10 (Nat.toDigits 10 n) 0 = n :=
    Nat.ofDigitChars_toDigits (by decide) (by decide)
  have hdigits : ∀ c ∈ Nat.toDigits 10 n, c.isDigit = true :=
    fun c hc => Nat.isDigit_of_mem_toDigits (by decide) (by decide) hc
  rw [significand_ofDigitChars hdigits (by rwa [hvalue]), hvalue]

/-- A number is written with at least one digit. -/
theorem exists_toDigits (n : Nat) : ∃ c cs, Nat.toDigits 10 n = c :: cs ∧ c.isDigit = true := by
  obtain ⟨c, cs, hdigits⟩ := List.exists_cons_of_ne_nil (Nat.toDigits_ne_nil (n := n) (b := 10))
  have hc : c ∈ Nat.toDigits 10 n := hdigits ▸ List.mem_cons_self
  exact ⟨c, cs, hdigits, Nat.isDigit_of_mem_toDigits (by decide) (by decide) hc⟩

/-- The digits of a number are scanned as its whole part. -/
theorem scanNumber_toDigits (negative : Bool) (n : Nat) :
    scanNumber negative (ascii (Nat.toDigits 10 n)) =
      .ok (⟨negative, ascii (Nat.toDigits 10 n), none, none⟩, []) := by
  have hall := digits_toDigits n
  obtain ⟨c, cs, hdigits, hdigit⟩ := exists_toDigits n
  have hzero : (c.toNat.toUInt8 = 0x30 && !(ascii cs).isEmpty) = false := by
    rcases Nat.eq_zero_or_pos n with rfl | hn
    · cases hdigits
      rfl
    · have hc : c ≠ '0' := head?_toDigits hn c (by rw [hdigits]; rfl)
      have hvalue := (isDigit_toUInt8 hdigit).2
      rw [Bool.and_eq_false_iff]
      refine .inl (decide_eq_false fun hbyte => hc (Char.toNat_inj.mp ?_))
      rw [hbyte] at hvalue
      simp only [Char.isDigit, Bool.and_eq_true, decide_eq_true_eq] at hdigit
      have : 48 ≤ c.toNat := hdigit.1
      have hnil : digitValue 0x30 = 0 := rfl
      show c.toNat = 48
      omega
  rw [hdigits] at hall ⊢
  rw [scanNumber, List.takeWhile_eq_self_iff.mpr hall, List.dropWhile_eq_nil_iff.mpr hall]
  simp only [ascii, List.map_cons] at hzero ⊢
  rw [hzero]
  rfl

/-- The digits and the sign of a whole number stand for it. -/
theorem number?_whole (n : Int) (fits : FitsWord n) :
    Literal.number? ⟨decide (n < 0), ascii (Nat.toDigits 10 n.natAbs), none, none⟩ =
      some (.whole n fits) := by
  have hsize : n.natAbs < UInt64.size := by
    obtain ⟨_, _⟩ := fits
    rw [show UInt64.size = 18446744073709551616 from rfl]
    omega
  have hn : (if decide (n < 0) = true then -(n.natAbs : Int) else n.natAbs) = n := by
    simp only [decide_eq_true_eq]
    split <;> omega
  have hsign : ¬ (decide (n < 0) = true ∧ n.natAbs = 0) := by
    simp only [decide_eq_true_eq]
    omega
  rw [Literal.number?, significand_toDigits hsize]
  simp only [hn]
  exact dif_pos ⟨trivial, hsign, fits⟩

/-- A whole number is read back from what is written for it. -/
theorem readNumber_whole (n : Int) (fits : FitsWord n) :
    readNumber? (numberBytes (.whole n fits)) = some (.whole n fits) := by
  have hnumber := number?_whole n fits
  by_cases hneg : n < 0
  · have hbytes : numberBytes (.whole n fits) = 0x2D :: ascii (Nat.toDigits 10 n.natAbs) := by
      rw [numberBytes, wholeChars, if_pos hneg]
      rfl
    rw [decide_eq_true hneg] at hnumber
    simp only [hbytes, readNumber?, if_true, scanNumber_toDigits]
    exact hnumber
  · obtain ⟨c, cs, hdigits, hc⟩ := exists_toDigits n.natAbs
    have hminus : c.toNat.toUInt8 ≠ 0x2D := by
      intro h
      have := (isDigit_toUInt8 hc).1
      rw [h] at this
      cases this
    have hbytes : numberBytes (.whole n fits) = ascii (c :: cs) := by
      rw [numberBytes, wholeChars, if_neg hneg, hdigits]
    have hscan := scanNumber_toDigits false n.natAbs
    rw [decide_eq_false hneg] at hnumber
    have hcons : ascii (c :: cs) = c.toNat.toUInt8 :: ascii cs := rfl
    rw [hdigits, hcons] at hscan hnumber
    simp only [hbytes, hcons, readNumber?, if_neg hminus, hscan]
    exact hnumber

end Json

/-- A double is read back from the text that is written for it. -/
def Double.ReadsBack (d : Double) : Prop :=
  Json.readNumber? (Json.ascii d.chars) = some (.double d)

instance (d : Double) : Decidable d.ReadsBack :=
  inferInstanceAs (Decidable (_ = _))

end TransitPush
