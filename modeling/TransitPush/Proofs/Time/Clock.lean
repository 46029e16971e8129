import TransitPush.Time.Interval
/-!
# Times of a clock

A clock never shows a leap second. Its times are numbers, the nanoseconds since 1970: order,
difference and sum of times are those of the numbers. Only a sum may not exist, beyond the first or
last year.

* `Timestamp.since_eq`, `Timestamp.le_iff`, `Timestamp.lt_iff`, `Timestamp.nanos_of_add?`,
  `Timestamp.add?_eq_none`: a time as a number.
* `Timestamp.since_lt_of_over`: windows that follow one another.
* `Timestamp.outside_of_cutoff`: what lies before the cutoff of a window lies outside of the window,
  then and at any later time.
-/
namespace TransitPush

namespace Interval

def nanos (i : Interval) : Int :=
  i.seconds.toNat * nanosPerSecond + i.nano.val

theorem nanos_nonneg (i : Interval) : 0 ≤ i.nanos := by
  unfold nanos nanosPerSecond
  omega

theorem toDelta_eq (i : Interval) : i.toDelta = i.nanos ∨ i.toDelta = TimeDelta.longest := by
  unfold toDelta
  dsimp only
  split
  · exact .inl rfl
  · exact .inr rfl

theorem toDelta_nonneg (i : Interval) : (0 : Int) ≤ i.toDelta := by
  rcases i.toDelta_eq with h | h
  · rw [h]
    exact i.nanos_nonneg
  · rw [h]
    decide

end Interval

namespace Timestamp

def nanos (t : Timestamp) : Int :=
  t.second * nanosPerSecond + t.nano

variable {a b t cutoff : Timestamp} {d window : TimeDelta}

theorem nano_lt (h : t.isLeap = false) : t.nano < nanosPerSecond := by
  simpa only [isLeap, decide_eq_false_iff_not, Nat.not_le] using h

theorem since_eq (ha : a.isLeap = false) (hb : b.isLeap = false) :
    a.since b = a.nanos - b.nanos := by
  unfold since nanos nanosPerSecond
  simp only [ha, hb, Bool.false_eq_true, and_false, if_false]
  show (_ : Int) = _
  omega

theorem le_iff (ha : a.isLeap = false) (hb : b.isLeap = false) : a ≤ b ↔ a.nanos ≤ b.nanos := by
  have hanano := nano_lt ha
  have hbnano := nano_lt hb
  show ¬ (b.second < a.second ∨ b.second = a.second ∧ b.nano < a.nano) ↔ _
  unfold nanos
  unfold nanosPerSecond at *
  omega

theorem lt_iff (ha : a.isLeap = false) (hb : b.isLeap = false) : a < b ↔ a.nanos < b.nanos := by
  have hle := le_iff hb ha
  constructor
  · exact fun hlt => Int.not_le.mp fun h => hle.mpr h hlt
  · exact fun hlt => Classical.not_not.mp fun h => Int.not_le.mpr hlt (hle.mp h)

theorem ofParts?_eq_some {second : Int} {nano : Nat} (h : ofParts? second nano = some t) :
    t.second = second ∧ t.nano = nano := by
  unfold ofParts? at h
  split at h
  · cases h
    exact ⟨rfl, rfl⟩
  · cases h

/-- A sum is made from the sum of the numbers. -/
theorem add?_eq (ht : t.isLeap = false) : t.add? d =
    ofParts? ((t.nanos + d).fdiv nanosPerSecond) ((t.nanos + d).fmod nanosPerSecond).toNat := by
  unfold add?
  simp only [ht, Bool.false_eq_true, false_and, if_false]
  have hparts := Int.tdiv_mul_add_tmod d nanosPerSecond
  generalize d.tdiv nanosPerSecond = whole at hparts
  generalize d.tmod nanosPerSecond = part at hparts
  have htotal : (t.second + whole) * nanosPerSecond + (t.nano + part) = t.nanos + d := by
    rw [← hparts, nanos, Int.add_mul]
    omega
  rw [htotal]

/-- A sum that exists is the sum of the numbers, and no leap second. -/
theorem nanos_of_add? (ht : t.isLeap = false) (h : t.add? d = some cutoff) :
    cutoff.nanos = t.nanos + d ∧ cutoff.isLeap = false := by
  rw [add?_eq ht] at h
  obtain ⟨hsecond, hnano⟩ := ofParts?_eq_some h
  have hpositive : (0 : Int) < nanosPerSecond := by decide
  generalize t.nanos + d = total at hsecond hnano ⊢
  have hdivided := Int.mul_fdiv_add_fmod total nanosPerSecond
  have hlow := Int.fmod_nonneg_of_pos total hpositive
  have hhigh := Int.fmod_lt_of_pos total hpositive
  constructor
  · rw [nanos, hsecond, hnano, Int.toNat_of_nonneg hlow, Int.mul_comm, hdivided]
  · rw [isLeap, hnano, decide_eq_false_iff_not]
    omega

theorem nanos_greatest : greatest.nanos = lastSecond * nanosPerSecond + 999999999 := rfl

theorem nanos_le_greatest (ht : t.isLeap = false) : t.nanos ≤ greatest.nanos := by
  have hnano := nano_lt ht
  obtain ⟨-, hlast, -⟩ := t.valid
  rw [nanos_greatest, nanos]
  unfold nanosPerSecond at *
  omega

/-- A sum that is not there lies beyond the greatest timestamp, if nothing is taken away. -/
theorem add?_eq_none (ht : t.isLeap = false) (hd : (0 : Int) ≤ d) (h : t.add? d = none) :
    greatest.nanos ≤ t.nanos + d := by
  rw [add?_eq ht] at h
  have hpositive : (0 : Int) < nanosPerSecond := by decide
  have hfirst : firstSecond * nanosPerSecond ≤ t.nanos + d := by
    obtain ⟨hfirst, -⟩ := t.valid
    have hwhole := Int.mul_le_mul_of_nonneg_right hfirst (Int.le_of_lt hpositive)
    unfold nanos
    omega
  generalize t.nanos + d = total at h hfirst ⊢
  have hdivided := Int.mul_fdiv_add_fmod total nanosPerSecond
  have hlow := Int.fmod_nonneg_of_pos total hpositive
  have hhigh := Int.fmod_lt_of_pos total hpositive
  generalize total.fdiv nanosPerSecond = second at h hdivided
  generalize total.fmod nanosPerSecond = nano at h hdivided hlow hhigh
  unfold ofParts? at h
  split at h
  · cases h
  · rename_i hinvalid
    rw [nanos_greatest]
    unfold Valid at hinvalid
    unfold firstSecond lastSecond nanosPerSecond at *
    omega

/-- The later a time, the less has passed since. -/
theorem since_le_since (ha : a.isLeap = false) (hb : b.isLeap = false) (ht : t.isLeap = false)
    (h : a ≤ b) : t.since b ≤ t.since a := by
  have hnanos := (le_iff ha hb).mp h
  rw [since_eq ht ha, since_eq ht hb]
  exact Int.sub_le_sub_left hnanos _

/-- A time at which a window is over opens a new one, in which lies what lies in the old one. -/
theorem since_lt_of_over (ha : a.isLeap = false) (hb : b.isLeap = false) (ht : t.isLeap = false)
    (hwindow : (0 : Int) ≤ window) (hover : ¬ b.since a < window) (hopen : t.since a < window) :
    t.since b < window := by
  rw [since_eq hb ha] at hover
  rw [since_eq ht ha] at hopen
  rw [since_eq ht hb]
  have hover : ¬ b.nanos - a.nanos < (window : Int) := hover
  have hopen : t.nanos - a.nanos < (window : Int) := hopen
  show t.nanos - b.nanos < (window : Int)
  omega

theorem outside_of_cutoff {now later : Timestamp} (hnow : now.isLeap = false)
    (ha : a.isLeap = false) (hlater : later.isLeap = false) (hle : now ≤ later)
    (hcutoff : now.add? (-window) = some cutoff) (hold : ¬ cutoff ≤ a) :
    ¬ later.since a < window := by
  obtain ⟨hsum, hleap⟩ := nanos_of_add? hnow hcutoff
  rw [le_iff hleap ha, hsum] at hold
  have hnanos := (le_iff hnow hlater).mp hle
  rw [since_eq hlater ha]
  show ¬ ((_ : Int) < _)
  omega

end Timestamp
end TransitPush
