/-!
# The calendar

Dates of the proleptic Gregorian calendar as days since 1 January 1970. Years are counted from
1 March, so that a leap day ends its year: then the days before a month, a year of the century, a
century and a span of 400 years each follow one formula.
-/
namespace TransitPush.Calendar

def daysPerEra : Nat := 146097

/-- Days from 1 March of year 0 to 1 January 1970. -/
def epochShift : Int := 719468

/-- A leap year is divisible by 4, and if by 100 then by 400. -/
def isLeap (year : Int) : Bool :=
  year % 4 = 0 && (year % 100 ≠ 0 || year % 400 = 0)

def daysInMonth (year : Int) (month : Nat) : Nat :=
  if month = 2 then if isLeap year then 29 else 28
  else if month = 4 ∨ month = 6 ∨ month = 9 ∨ month = 11 then 30
  else 31

def Exists (year : Int) (month day : Nat) : Prop :=
  1 ≤ month ∧ month ≤ 12 ∧ 1 ≤ day ∧ day ≤ daysInMonth year month

instance (year : Int) (month day : Nat) : Decidable (Exists year month day) :=
  inferInstanceAs (Decidable (_ ∧ _))

/-- The days before a month, counted from March as month 0. -/
def daysBeforeMonth (m : Nat) : Nat :=
  (153 * m + 2) / 5

def dayNumber (year : Int) (month day : Nat) : Int :=
  let (y, m) := if month ≤ 2 then (year - 1, month + 9) else (year, month - 3)
  365 * y + y.fdiv 4 - y.fdiv 100 + y.fdiv 400 + daysBeforeMonth m + day - 1 - epochShift

/-- The date with a day number, as year, month and day. -/
def date (n : Int) : Int × Nat × Nat :=
  let z := n + epochShift
  let era := z.fdiv daysPerEra
  let d := (z.fmod daysPerEra).toNat
  let century := min 3 (d / 36524)
  let d := d - 36524 * century
  let cycle := d / 1461
  let d := d % 1461
  let y := min 3 (d / 365)
  let d := d - 365 * y
  let m := (5 * d + 2) / 153
  let day := d - daysBeforeMonth m + 1
  let year := 400 * era + 100 * century + 4 * cycle + y
  if m < 10 then (year, m + 3, day) else (year + 1, m - 9, day)

end TransitPush.Calendar
