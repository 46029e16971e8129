import TransitPush.Table
import TransitPush.Time.Timestamp
/-!
# Timestamp maps

One timestamp for each of some keys. Both the record of pushes already made and the schedule of
heartbeats are kept this way.

* `check`: records a time unless one was recorded less than a window before.
* `compute`: replaces the value of a key by what a function makes of it.
* `retainFrom`: drops what is older than a cutoff.
* `get?_compute`, `get?_retainFrom`: what these do to look-ups.
-/
namespace TransitPush

abbrev TimestampMap := Table Timestamp

namespace TimestampMap

/-- The map with the value of a key replaced by what `f` makes of it. Mirrors `compute`. -/
def compute (m : TimestampMap) (key : String) (f : Option Timestamp → Option Timestamp) :
    TimestampMap :=
  m.set key (f (m.get? key))

theorem get?_compute (m : TimestampMap) (key k : String)
    (f : Option Timestamp → Option Timestamp) :
    (m.compute key f).get? k = if k = key then f (m.get? key) else m.get? k :=
  m.get?_set key k _

/-- A time recorded for the key lies less than `window` before `now`. -/
def isRecent (m : TimestampMap) (key : String) (now : Timestamp) (window : TimeDelta) : Bool :=
  match m.get? key with
  | some at_ => now.since at_ < window
  | none => false

/-- Records `now` for the key unless a recent time is there. Mirrors `check_and_record`. -/
def check (m : TimestampMap) (key : String) (now : Timestamp) (window : TimeDelta) :
    Bool × TimestampMap :=
  if m.isRecent key now window then (false, m) else (true, m.insert key now)

/-- The entries from `cutoff` on, and the number of those dropped. Mirrors `retain_newer_than`. -/
def retainFrom (m : TimestampMap) (cutoff : Timestamp) : Nat × TimestampMap :=
  let kept := m.filter fun _ at_ => cutoff ≤ at_
  (m.size - kept.size, kept)

theorem get?_retainFrom (m : TimestampMap) (cutoff : Timestamp) (k : String) :
    (m.retainFrom cutoff).2.get? k = (m.get? k).filter fun at_ => cutoff ≤ at_ :=
  m.get?_filter _ k

end TimestampMap
end TransitPush
