import TransitPush.Time.Timestamp
/-!
# Intervals

The length of a pause: whole seconds of 64 bits and nanoseconds.
-/
namespace TransitPush

structure Interval where
  seconds : UInt64
  nano : Fin nanosPerSecond
deriving DecidableEq

namespace Interval

def ofSeconds (n : UInt64) : Interval := ⟨n, ⟨0, by decide⟩⟩

def ofMillis (n : UInt64) : Interval :=
  ⟨n / 1000, ⟨n.toNat % 1000 * 1000000, by unfold nanosPerSecond; omega⟩⟩

/-- The milliseconds beyond the whole seconds. -/
def restMillis (i : Interval) : Nat :=
  i.nano.val / 1000000

/-- The interval as a length of time; one that is too long counts as the longest. Mirrors `to_delta`. -/
def toDelta (i : Interval) : TimeDelta :=
  let nanos : Int := i.seconds.toNat * nanosPerSecond + i.nano.val
  if nanos ≤ TimeDelta.longest then nanos else TimeDelta.longest

end Interval
end TransitPush
