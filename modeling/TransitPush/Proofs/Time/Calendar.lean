import TransitPush.Time.Calendar
/-!
# Dates and day numbers

Every day number is the number of its own date, and that date is in the calendar. A date is taken
apart into spans of 400 years, centuries, spans of four years and years, each counted from 1 March;
`Parts` says how these add up to the day and in which bounds they lie.

* `parts_date`: the parts of a date.
* `dayNumber_date`: the day number of a date is the one it was made from.
* `exists_date`: the date is one that the calendar has.
* `year_date`: days within some years have a date in them.
-/
namespace TransitPush.Calendar

/-- A day in its parts: the span of 400 years, the century in it, the span of four years, the year and
the day of the year, which begins on 1 March. A span is longer by its leap day only where it ends. -/
structure Parts (n era : Int) (century cycle year day : Nat) : Prop where
  sum : n + epochShift = 146097 * era + 36524 * century + 1461 * cycle + 365 * year + day
  century_le : century ≤ 3
  cycle_le : cycle ≤ 24
  year_le : year ≤ 3
  day_le : day ≤ 365
  leap : day = 365 → year = 3 ∧ (cycle = 24 → century = 3)

/-- The month of a day of the year, counted from March as month 0. -/
def monthOf (day : Nat) : Nat :=
  (5 * day + 2) / 153

/-- A day in its parts as year, month and day of the month. -/
def ofParts (era : Int) (century cycle year day : Nat) : Int × Nat × Nat :=
  let m := monthOf day
  let y := 400 * era + 100 * century + 4 * cycle + year
  let d := day - daysBeforeMonth m + 1
  if m < 10 then (y, m + 3, d) else (y + 1, m - 9, d)

theorem parts_date (n : Int) : ∃ era century cycle year day,
    Parts n era century cycle year day ∧ date n = ofParts era century cycle year day := by
  have hfdiv : (n + epochShift).fdiv daysPerEra = (n + epochShift) / 146097 :=
    Int.fdiv_eq_ediv_of_nonneg _ (by decide)
  have hfmod : (n + epochShift).fmod daysPerEra = (n + epochShift) % 146097 :=
    Int.fmod_eq_emod_of_nonneg _ (by decide)
  have hsum : n + epochShift = 146097 * ((n + epochShift) / 146097) +
      ((n + epochShift) % 146097).toNat := by omega
  have hlt : ((n + epochShift) % 146097).toNat < 146097 := by omega
  unfold date
  simp only [hfdiv, hfmod]
  generalize ((n + epochShift) % 146097).toNat = d at hsum hlt ⊢
  generalize (n + epochShift) / 146097 = era at hsum ⊢
  refine ⟨era, min 3 (d / 36524), (d - 36524 * min 3 (d / 36524)) / 1461,
    min 3 ((d - 36524 * min 3 (d / 36524)) % 1461 / 365), _, ⟨?_, ?_, ?_, ?_, ?_, ?_⟩, rfl⟩
  · omega
  · omega
  · omega
  · omega
  · omega
  · omega

/-- A day of the year in its month. -/
theorem monthOf_spec : ∀ day < 366, monthOf day ≤ 11 ∧ daysBeforeMonth (monthOf day) ≤ day ∧
    (monthOf day < 10 → day - daysBeforeMonth (monthOf day) < daysInMonth 0 (monthOf day + 3)) ∧
    (monthOf day = 10 → day - daysBeforeMonth (monthOf day) < 31) ∧
    (monthOf day = 11 → day - daysBeforeMonth (monthOf day) < 29 ∧
      (day < 365 → day - daysBeforeMonth (monthOf day) < 28)) := by
  decide +kernel

section
variable {n era : Int} {century cycle year day : Nat}

theorem dayNumber_ofParts (h : Parts n era century cycle year day) :
    dayNumber (ofParts era century cycle year day).1 (ofParts era century cycle year day).2.1
      (ofParts era century cycle year day).2.2 = n := by
  obtain ⟨hsum, hcentury, hcycle, hyear, hday, -⟩ := h
  obtain ⟨hlast, hbefore, -⟩ := monthOf_spec day (by omega)
  have hnumber : ∀ y : Int, ∀ m : Nat, y = 400 * era + 100 * century + 4 * cycle + year →
      m = monthOf day → 365 * y + y.fdiv 4 - y.fdiv 100 + y.fdiv 400 + daysBeforeMonth m +
        (day - daysBeforeMonth (monthOf day) + 1 : Nat) - 1 - epochShift = n := by
    rintro y m hy rfl
    rw [Int.fdiv_eq_ediv_of_nonneg _ (by decide), Int.fdiv_eq_ediv_of_nonneg _ (by decide),
      Int.fdiv_eq_ediv_of_nonneg _ (by decide)]
    omega
  unfold ofParts
  simp only
  split
  · rename_i hm
    rw [dayNumber, if_neg (by simp only; omega)]
    exact hnumber _ _ rfl (by simp only; omega)
  · rename_i hm
    rw [dayNumber, if_pos (by simp only; omega)]
    exact hnumber _ _ (by simp only; omega) (by simp only; omega)

theorem exists_ofParts (h : Parts n era century cycle year day) :
    Exists (ofParts era century cycle year day).1 (ofParts era century cycle year day).2.1
      (ofParts era century cycle year day).2.2 := by
  obtain ⟨-, hcentury, hcycle, hyear, hday, hleap⟩ := h
  obtain ⟨hm, hbefore, hspring, hjanuary, hfebruary⟩ := monthOf_spec day (by omega)
  unfold ofParts
  simp only
  split
  · rename_i hlt
    have hspring := hspring hlt
    have hlength : ∀ y : Int, daysInMonth y (monthOf day + 3) = daysInMonth 0 (monthOf day + 3) := by
      intro y
      simp only [daysInMonth, show ¬ monthOf day + 3 = 2 by omega, if_false]
    refine ⟨?_, ?_, ?_, ?_⟩
    · show 1 ≤ monthOf day + 3
      omega
    · show monthOf day + 3 ≤ 12
      omega
    · show 1 ≤ day - daysBeforeMonth (monthOf day) + 1
      omega
    · show day - daysBeforeMonth (monthOf day) + 1 ≤ daysInMonth _ (monthOf day + 3)
      rw [hlength]
      omega
  · rename_i hge
    rcases (show monthOf day = 10 ∨ monthOf day = 11 by omega) with hmonth | hmonth
    · have hjanuary := hjanuary hmonth
      rw [hmonth] at hjanuary ⊢
      exact ⟨Nat.le_refl 1, Nat.le_add_left 1 11, Nat.le_add_left 1 _, hjanuary⟩
    · have hfebruary := hfebruary hmonth
      rw [hmonth] at hfebruary ⊢
      refine ⟨Nat.le_succ 1, Nat.le_add_left 2 10, Nat.le_add_left 1 _, ?_⟩
      show day - daysBeforeMonth 11 + 1 ≤
        if isLeap (400 * era + 100 * century + 4 * cycle + year + 1) then 29 else 28
      split
      · exact hfebruary.1
      · rename_i hcommon
        refine hfebruary.2 (Nat.lt_of_le_of_ne hday fun h365 => hcommon ?_)
        obtain ⟨hlast, hcentury⟩ := hleap h365
        simp only [isLeap, Bool.and_eq_true, Bool.or_eq_true, decide_eq_true_eq]
        omega

end

/-- A day number is the number of its date. -/
theorem dayNumber_date (n : Int) : dayNumber (date n).1 (date n).2.1 (date n).2.2 = n := by
  obtain ⟨era, century, cycle, year, day, hparts, hdate⟩ := parts_date n
  rw [hdate]
  exact dayNumber_ofParts hparts

/-- The calendar has the date of every day number. -/
theorem exists_date (n : Int) : Exists (date n).1 (date n).2.1 (date n).2.2 := by
  obtain ⟨era, century, cycle, year, day, hparts, hdate⟩ := parts_date n
  rw [hdate]
  exact exists_ofParts hparts

/-- Days from 1 January -262143 to 31 December 262142 have a date in these years. -/
theorem year_date {n : Int} (hfirst : -96465292 ≤ n) (hlast : n ≤ 95026236) :
    -262143 ≤ (date n).1 ∧ (date n).1 ≤ 262142 := by
  obtain ⟨era, century, cycle, year, day, ⟨hsum, hcentury, hcycle, hyear, hday, -⟩, hdate⟩ :=
    parts_date n
  rw [hdate]
  unfold ofParts monthOf
  simp only [epochShift] at hsum ⊢
  split
  · simp only
    omega
  · -- The year before 262143 lies in the span that begins with year 262000.
    have hera : 262142 ≤ 400 * era + 100 * century + 4 * cycle + year → 655 ≤ era := by omega
    simp only
    omega

end TransitPush.Calendar
