import Mathlib
import TransitPush.Proofs.Text.Ends
import TransitPush.Proofs.Time.Calendar
import TransitPush.Time.Rfc3339
/-!
# Timestamps that are written and read

Every timestamp is read back from its own text: in any year that counts, with any fraction, and in a
leap second. Each part of the text is read by itself, whatever follows it.

* `digits?_append`: a row of digits is taken to its end.
* `year?_yearChars`, `number?_padded`, `fraction?_fractionChars`: the parts.
* `ofText?_toText`: the whole text.
-/
namespace TransitPush.Timestamp

/-! ## Digits -/

theorem isDecimal_of_isDigit {c : Char} (h : c.isDigit = true) : isDecimal c = true := by
  simp only [Char.isDigit, Bool.and_eq_true, decide_eq_true_eq] at h
  simp only [isDecimal, Bool.and_eq_true, decide_eq_true_eq]
  exact h

theorem isBlank_of_isDecimal {c : Char} (h : isDecimal c = true) : Text.isBlank c = false := by
  have hrange : 48 ≤ c.toNat ∧ c.toNat < 58 := by
    simp only [isDecimal, Bool.and_eq_true, decide_eq_true_eq] at h
    exact ⟨h.1, Nat.lt_succ_of_le h.2⟩
  have hall : ∀ n < 58, 48 ≤ n → Text.isBlank (Char.ofNat n) = false := by decide
  rw [← Char.ofNat_toNat c]
  exact hall c.toNat hrange.2 hrange.1

/-- The digits of a number in a width. -/
theorem isDecimal_padded {width n : Nat} : ∀ c ∈ padded width n, isDecimal c = true := by
  intro c hc
  rcases List.mem_append.mp hc with hc | hc
  · rw [List.eq_of_mem_replicate hc]
    rfl
  · exact isDecimal_of_isDigit (Nat.isDigit_of_mem_toDigits (by decide) (by decide) hc)

theorem padded_ne_nil {width n : Nat} : padded width n ≠ [] := by
  intro h
  exact Nat.toDigits_ne_nil (List.append_eq_nil_iff.mp h).2

theorem length_padded {width n : Nat} (hwidth : 0 < width) (hn : n < 10 ^ width) :
    (padded width n).length = width := by
  have : (Nat.toDigits 10 n).length ≤ width :=
    (Nat.length_toDigits_le_iff (by decide) hwidth).mpr hn
  simp only [padded, List.length_append, List.length_replicate]
  omega

theorem digitsNumber_eq (ds : List Char) : digitsNumber ds = Nat.ofDigitChars 10 ds 0 := by
  rw [Nat.ofDigitChars_eq_foldl]
  rfl

/-- The digits of a number stand for it, whatever the width. -/
theorem digitsNumber_padded {width n : Nat} : digitsNumber (padded width n) = n := by
  rw [digitsNumber_eq, padded, Nat.ofDigitChars_append, Nat.ofDigitChars_replicate_zero, Nat.mul_zero,
    Nat.ofDigitChars_toDigits (by decide) (by decide)]

section
variable {ds r : List Char} {width : Nat}

/-- A row of digits is taken to its end, which is the width or the first character that is no digit. -/
theorem digits?_append (hdigits : ∀ c ∈ ds, isDecimal c = true) (hne : ds ≠ [])
    (hwidth : ds.length ≤ width) (hend : ds.length = width ∨ Ends isDecimal r) :
    digits? width (ds ++ r) = some (ds, r) := by
  have htake : ((ds ++ r).take width).takeWhile isDecimal = ds := by
    have hrest : Ends isDecimal (r.take (width - ds.length)) := by
      rcases hend with heq | hr
      · rw [heq, Nat.sub_self]
        exact ends_nil
      · intro c hc
        refine hr c ?_
        rw [List.head?_take] at hc
        split at hc
        · cases hc
        · exact hc
    rw [List.take_append, List.take_of_length_le hwidth, takeWhile_append hrest]
    exact List.takeWhile_eq_self_iff.mpr hdigits
  rw [digits?, htake]
  cases ds with
  | nil => exact absurd rfl hne
  | cons d ds => simp

theorem dropWhile_digits (hdigits : ∀ c ∈ ds, isDecimal c = true) (hne : ds ≠ []) :
    (ds ++ r).dropWhile Text.isBlank = ds ++ r := by
  obtain ⟨d, ds, rfl⟩ := List.exists_cons_of_ne_nil hne
  exact (ends_cons (isBlank_of_isDecimal (hdigits d List.mem_cons_self))).dropWhile_eq

end

/-! ## The parts of the text -/

variable {r : List Char}

/-- A number that fills its width is read, whatever follows. -/
theorem number?_padded {width n : Nat} (hwidth : 0 < width) (hn : n < 10 ^ width) :
    number? width (padded width n ++ r) = some (n, r) := by
  have hlength := length_padded hwidth hn
  rw [number?, dropWhile_digits isDecimal_padded padded_ne_nil,
    digits?_append isDecimal_padded padded_ne_nil (Nat.le_of_eq hlength) (.inl hlength)]
  simp only [Option.map_some, digitsNumber_padded]

/-- What starts with digits starts with no sign. -/
theorem isDecimal_of_padded {width n : Nat} {c : Char} {s : List Char}
    (h : padded width n ++ r = c :: s) : isDecimal c = true := by
  have hne : padded width n ≠ [] := padded_ne_nil
  obtain ⟨d, ds, hds⟩ := List.exists_cons_of_ne_nil hne
  rw [hds, List.cons_append] at h
  exact (List.cons.inj h).1 ▸ isDecimal_padded d (hds ▸ List.mem_cons_self)

/-- A year is read up to the hyphen behind it. -/
theorem year?_yearChars (year : Int) :
    year? (yearChars year ++ '-' :: r) = some (year, '-' :: r) := by
  have hend : Ends isDecimal ('-' :: r) := ends_cons rfl
  have hsigned : ∀ n, digits? (padded 4 n ++ '-' :: r).length (padded 4 n ++ '-' :: r) =
      some (padded 4 n, '-' :: r) := fun n =>
    digits?_append isDecimal_padded padded_ne_nil
      (by rw [List.length_append]; exact Nat.le_add_right _ _) (.inr hend)
  unfold yearChars
  split
  · rename_i hyear
    have hlength : (padded 4 year.toNat).length = 4 := length_padded (by decide) (by omega)
    have hdigits := digits?_append (r := '-' :: r) isDecimal_padded padded_ne_nil
      (Nat.le_of_eq hlength) (.inl hlength)
    have hnumber : ((digitsNumber (padded 4 year.toNat) : Nat) : Int) = year := by
      rw [digitsNumber_padded]
      omega
    rw [year?, dropWhile_digits isDecimal_padded padded_ne_nil]
    split
    · rename_i hminus
      exact absurd (isDecimal_of_padded hminus) (by decide)
    · rename_i hplus
      exact absurd (isDecimal_of_padded hplus) (by decide)
    · simp only [hdigits, Option.map_some, hnumber]
  · rename_i hyear
    split
    · have hnumber : -((digitsNumber (padded 4 year.natAbs) : Nat) : Int) = year := by
        rw [digitsNumber_padded]
        omega
      rw [List.cons_append]
      show (digits? (padded 4 year.natAbs ++ '-' :: r).length _).map _ = _
      simp only [hsigned, Option.map_some, hnumber]
    · have hnumber : ((digitsNumber (padded 4 year.natAbs) : Nat) : Int) = year := by
        rw [digitsNumber_padded]
        omega
      rw [List.cons_append]
      show (digits? (padded 4 year.natAbs ++ '-' :: r).length _).map _ = _
      simp only [hsigned, Option.map_some, hnumber]

/-- The fraction of a second is read up to the letter behind it. -/
theorem fraction?_fractionChars {nano : Nat} (hnano : nano < nanosPerSecond) :
    fraction? (fractionChars nano ++ ['Z']) = some (nano, ['Z']) := by
  have hend : Ends isDecimal ['Z'] := ends_cons rfl
  have hread : ∀ width n, 0 < width → width ≤ 9 → n < 10 ^ width → n * Nat.pow 10 (9 - width) = nano →
      fraction? (('.' :: padded width n) ++ ['Z']) = some (nano, ['Z']) := by
    intro width n hpos hwidth hn hvalue
    have hlength := length_padded hpos hn
    rw [List.cons_append, fraction?, digits?_append isDecimal_padded padded_ne_nil
      (Nat.le_trans (Nat.le_of_eq hlength) hwidth) (.inr hend)]
    simp only [Option.map_some, digitsNumber_padded, hlength, hvalue, hend.dropWhile_eq]
  simp only [nanosPerSecond] at hnano
  unfold fractionChars
  split
  · rename_i hzero
    rw [hzero]
    rfl
  split
  · exact hread 3 _ (by decide) (by decide) (by omega) (by simp only [Nat.pow_eq]; omega)
  split
  · exact hread 6 _ (by decide) (by decide) (by omega) (by simp only [Nat.pow_eq]; omega)
  · exact hread 9 _ (by decide) (by decide) (by omega) (by simp only [Nat.pow_eq]; omega)

theorem mark?_cons {c : Char} (hc : Text.isBlank c = false) : mark? c (c :: r) = some r := by
  have hend : Ends Text.isBlank (c :: r) := ends_cons hc
  rw [mark?, hend.dropWhile_eq]
  exact if_pos rfl

/-- Month and day of a date have at most two digits. -/
theorem twoDigits_of_exists {year : Int} {month day : Nat} (h : Calendar.Exists year month day) :
    month < 10 ^ 2 ∧ day < 10 ^ 2 := by
  obtain ⟨-, hmonth, -, hday⟩ := h
  have hlength : Calendar.daysInMonth year month ≤ 31 := by
    unfold Calendar.daysInMonth
    split <;> split <;> omega
  omega

/-- A timestamp is a day and a time of day. -/
theorem second_eq (t : Timestamp) : t.timeOfDay.toNat < 86400 ∧
    t.second = t.second.fdiv secondsPerDay * secondsPerDay + t.timeOfDay.toNat := by
  rw [Int.fdiv_eq_ediv_of_nonneg _ (by decide)]
  simp only [timeOfDay, secondsPerDay]
  omega

/-- The second that is written, 60 in a leap second. -/
def shownSecond (t : Timestamp) : Nat :=
  t.timeOfDay.toNat % 60 + (if t.isLeap then 1 else 0)

/-- The second that is written gives the second and the nanoseconds back. -/
theorem shownSecond_spec (t : Timestamp) : t.shownSecond ≤ 60 ∧
    (if t.shownSecond = 60 then (59, t.nano % nanosPerSecond + nanosPerSecond)
      else (t.shownSecond, t.nano % nanosPerSecond)) = (t.timeOfDay.toNat % 60, t.nano) := by
  obtain ⟨-, -, hnano, hleap⟩ := t.valid
  obtain ⟨-, hsecond⟩ := t.second_eq
  simp only [secondsPerDay] at hsecond
  simp only [nanosPerSecond] at hnano hleap ⊢
  unfold shownSecond
  cases hisLeap : t.isLeap with
  | true =>
    have hlong : 1000000000 ≤ t.nano := of_decide_eq_true hisLeap
    have h59 : t.timeOfDay.toNat % 60 = 59 := by omega
    rw [h59]
    refine ⟨Nat.le_refl 60, ?_⟩
    show (59, t.nano % 1000000000 + 1000000000) = _
    rw [Prod.mk.injEq]
    omega
  | false =>
    have hshort : ¬ 1000000000 ≤ t.nano := of_decide_eq_false hisLeap
    simp only [Bool.false_eq_true, if_false, Nat.add_zero]
    refine ⟨by omega, ?_⟩
    rw [if_neg (by omega), Prod.mk.injEq]
    omega

/-! ## The whole text -/

theorem ofChars?_chars (t : Timestamp) : ofChars? t.chars = some t := by
  obtain ⟨hfirst, hlast, -, -⟩ := t.valid
  obtain ⟨htime, hsecond⟩ := t.second_eq
  obtain ⟨hshown, hclock⟩ := t.shownSecond_spec
  have hdays : -96465292 ≤ t.second.fdiv secondsPerDay ∧ t.second.fdiv secondsPerDay ≤ 95026236 := by
    rw [Int.fdiv_eq_ediv_of_nonneg _ (by decide)]
    simp only [firstSecond, lastSecond, secondsPerDay] at *
    omega
  obtain ⟨hyearFirst, hyearLast⟩ := Calendar.year_date hdays.1 hdays.2
  have hnumber := Calendar.dayNumber_date (t.second.fdiv secondsPerDay)
  have hexists := Calendar.exists_date (t.second.fdiv secondsPerDay)
  have hfraction : t.nano % nanosPerSecond < nanosPerSecond := Nat.mod_lt _ (by decide)
  unfold chars
  rcases hdate : Calendar.date (t.second.fdiv secondsPerDay) with ⟨year, month, day⟩
  rw [hdate] at hyearFirst hyearLast hnumber hexists
  simp only at hyearFirst hyearLast hnumber hexists ⊢
  obtain ⟨hmonth, hday⟩ := twoDigits_of_exists hexists
  have hrange : yearInRange year = true := by
    simp only [yearInRange, Bool.and_eq_true, decide_eq_true_eq]
    exact ⟨hyearFirst, hyearLast⟩
  rw [← shownSecond]
  generalize t.timeOfDay.toNat = time at *
  generalize t.shownSecond = second at *
  have hoffset : offset? (['Z'].dropWhile Text.isBlank) = some (0, []) := rfl
  have hblank : (guard (([] : List Char).all Text.isBlank = true) : Option Unit) = some () := rfl
  have hcounts : (guard (yearInRange year = true ∧ Calendar.Exists year month day ∧
      time / 3600 < 24 ∧ time / 60 % 60 < 60 ∧ second ≤ 60) : Option Unit) = some () :=
    if_pos ⟨hrange, hexists, by omega, by omega, hshown⟩
  have htotal : time / 3600 * 3600 + time / 60 % 60 * 60 + time % 60 = time := by omega
  -- Each part is read up to the next one; then the checks pass and the parts are put together.
  simp only [List.append_assoc, List.cons_append, ofChars?, bind, Option.bind, year?_yearChars,
    mark?_cons (show Text.isBlank '-' = false from rfl),
    mark?_cons (show Text.isBlank ':' = false from rfl),
    number?_padded Nat.two_pos hmonth, number?_padded Nat.two_pos hday,
    number?_padded Nat.two_pos (show time / 3600 < 10 ^ 2 by omega),
    number?_padded Nat.two_pos (show time / 60 % 60 < 10 ^ 2 by omega),
    number?_padded Nat.two_pos (show second < 10 ^ 2 by omega),
    fraction?_fractionChars hfraction, hoffset, hblank, hcounts, hclock, hnumber, htotal, Int.sub_zero]
  rw [← hsecond, ofParts?, dif_pos t.valid]

/-- A timestamp is read back from its text. -/
theorem ofText?_toText (t : Timestamp) : ofText? t.toText = some t := by
  rw [ofText?, toText, String.toList_ofList, ofChars?_chars]

end TransitPush.Timestamp
