import TransitPush.Time.Calendar
/-!
# Timestamps

A point in time is a second since 1 January 1970 UTC and nanoseconds in it. A leap second has no
number of its own: it is the second before it, with its nanoseconds counted on from `10 ^ 9`.

* `Timestamp.ofParts?`: the only way in which a timestamp comes about.
* `a.since b`: the nanoseconds from `b` to `a`, a leap second between the two times of day counted.
* `t.add? d`: the time `d` nanoseconds later, `none` beyond the first or last year.
-/
namespace TransitPush

def nanosPerSecond : Nat := 1000000000

def secondsPerDay : Nat := 86400

/-- A length of time in nanoseconds, which may be negative. -/
abbrev TimeDelta := Int

namespace TimeDelta

/-- The longest length of time: `2 ^ 63 - 1` milliseconds. -/
def longest : TimeDelta := 9223372036854775807 * 1000000

end TimeDelta

namespace Timestamp

def firstSecond : Int := -8334601228800

def lastSecond : Int := 8210266876799

/-- Seconds lie within the years that count; a leap second ends a minute. -/
def Valid (second : Int) (nano : Nat) : Prop :=
  firstSecond ≤ second ∧ second ≤ lastSecond ∧ nano < 2 * nanosPerSecond ∧
    (nano < nanosPerSecond ∨ second % 60 = 59)

instance (second : Int) (nano : Nat) : Decidable (Valid second nano) :=
  inferInstanceAs (Decidable (_ ∧ _))

end Timestamp

structure Timestamp where
  second : Int
  nano : Nat
  valid : Timestamp.Valid second nano
deriving DecidableEq

namespace Timestamp

def ofParts? (second : Int) (nano : Nat) : Option Timestamp :=
  if h : Valid second nano then some ⟨second, nano, h⟩ else none

def greatest : Timestamp := ⟨lastSecond, 999999999, by decide⟩

def epoch : Timestamp := ⟨0, 0, by decide⟩

/-! ## Order -/

/-- Earlier: by the second, then by the nanoseconds in it. -/
def Earlier (a b : Timestamp) : Prop :=
  a.second < b.second ∨ a.second = b.second ∧ a.nano < b.nano

instance : LT Timestamp := ⟨Earlier⟩

instance : LE Timestamp := ⟨fun a b => ¬ b < a⟩

instance (a b : Timestamp) : Decidable (a < b) :=
  inferInstanceAs (Decidable (_ ∨ _))

instance (a b : Timestamp) : Decidable (a ≤ b) :=
  inferInstanceAs (Decidable (¬ _))

def earlier (a b : Timestamp) : Timestamp :=
  if b < a then b else a

/-! ## Arithmetic -/

def timeOfDay (t : Timestamp) : Int :=
  t.second % secondsPerDay

def isLeap (t : Timestamp) : Bool :=
  nanosPerSecond ≤ t.nano

/-- The nanoseconds from `b` to `a`. A leap second counts when the other time of day lies beyond
it. -/
def since (a b : Timestamp) : TimeDelta :=
  let leap : Int :=
    if b.timeOfDay < a.timeOfDay ∧ b.isLeap then 1
    else if a.timeOfDay < b.timeOfDay ∧ a.isLeap then -1
    else 0
  (a.second - b.second + leap) * nanosPerSecond + (a.nano - b.nano : Int)

/-- The timestamp a length of time later, or earlier if it is negative. From a leap second it is
counted within that second as long as it stays there. -/
def add? (t : Timestamp) (d : TimeDelta) : Option Timestamp :=
  let whole := d.tdiv nanosPerSecond
  let part := d.tmod nanosPerSecond
  let stays := t.isLeap ∧ whole = 0 ∧ ¬ (0 < part ∧ 2 * nanosPerSecond ≤ t.nano + part)
  if stays then ofParts? t.second (t.nano + part).toNat
  else
    let (second, nano) : Int × Int :=
      if t.isLeap then
        (if whole < 0 then t.second + 1 else t.second, t.nano - nanosPerSecond)
      else (t.second, t.nano)
    let total := (second + whole) * nanosPerSecond + (nano + part)
    ofParts? (total.fdiv nanosPerSecond) (total.fmod nanosPerSecond).toNat

end Timestamp
end TransitPush
