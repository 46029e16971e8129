import TransitPush.Subscription
import TransitPush.TimestampMap
/-!
# Sweeps

From time to time a sweep looks at all subscriptions: which have reached their end, and which are due
a heartbeat. The end is looked for at most once per check interval, but not later than the next end
that is known. A heartbeat is due when its time has passed; who is new gets the first one an interval
later (section 4.5 of the specification).

* `Planner.plan`: what one sweep finds, and what it writes into the schedule.
-/
namespace TransitPush

/-- What a sweep finds: the subscriptions that end, and those that get a heartbeat. -/
structure SweepPlan where
  terminate : List Subscription
  heartbeat : List Subscription
deriving DecidableEq

def SweepPlan.isEmpty (p : SweepPlan) : Bool :=
  p.terminate.isEmpty && p.heartbeat.isEmpty

/-- How often ends are looked for, and when next. Mirrors `HeartbeatPlanner`. -/
structure Planner where
  checkInterval : TimeDelta
  nextCheck : Option Timestamp
deriving DecidableEq

/-- A time later by `d`, at most the greatest. -/
def Timestamp.after (t : Timestamp) (d : TimeDelta) : Timestamp :=
  (t.add? d).getD .greatest

namespace Planner

/-- How often ends are looked for by default: every three hours. -/
def defaultCheckInterval : Interval := .ofSeconds 10800

def ofInterval (i : Interval) : Planner := ⟨i.toDelta, none⟩

/-- Mirrors `termination_check_due`. -/
def checkDue (p : Planner) (now : Timestamp) : Bool :=
  p.nextCheck.all fun t => t ≤ now

/-- The subscription has reached its end. -/
def isOver (now : Timestamp) (s : Subscription) : Bool :=
  s.terminatesAt.any fun t => t < now

/-- The next look for ends: after the interval, or at an earlier end of one of the subscriptions.
Mirrors `schedule_termination_check`. -/
def checkAfter (p : Planner) (remaining : List Subscription) (now : Timestamp) : Timestamp :=
  let ends := (remaining.filterMap Subscription.terminatesAt).filter fun t => now ≤ t
  ends.foldl Timestamp.earlier (now.after p.checkInterval)

/-! ## Heartbeats -/

/-- The entry of a subscription after a sweep: one that is not past stays, any other is an interval
from now. Together with `heartbeatDue`, mirrors `heartbeat_due`. -/
def nextHeartbeat (interval : TimeDelta) (now : Timestamp) : Option Timestamp → Timestamp
  | some t => if now ≤ t then t else now.after interval
  | none => now.after interval

/-- The heartbeat of a subscription is due: its entry is past. -/
def heartbeatDue (now : Timestamp) (entry : Option Timestamp) : Bool :=
  entry.any fun t => t < now

/-- The subscriptions that are due a heartbeat, and the schedule after them. -/
def heartbeats (now : Timestamp) (schedule : TimestampMap) :
    List Subscription → List Subscription × TimestampMap
  | [] => ([], schedule)
  | s :: rest =>
    match s.heartbeat with
    | none => heartbeats now schedule rest
    | some interval =>
      let entry := schedule.get? s.id
      let (due, last) := heartbeats now
        (schedule.insert s.id (nextHeartbeat interval.toDelta now entry)) rest
      (if heartbeatDue now entry then s :: due else due, last)

/-- What a sweep of the subscriptions finds. Who has reached the end gets no heartbeat. Mirrors `plan`
of `HeartbeatPlanner`. -/
def plan (p : Planner) (schedule : TimestampMap) (all : List Subscription) (now : Timestamp) :
    SweepPlan × Planner × TimestampMap :=
  if p.checkDue now then
    let (ended, remaining) := all.partition (isOver now)
    let (due, schedule) := heartbeats now schedule remaining
    (⟨ended, due⟩, { p with nextCheck := some (p.checkAfter remaining now) }, schedule)
  else
    let (due, schedule) := heartbeats now schedule all
    (⟨[], due⟩, p, schedule)

end Planner
end TransitPush
