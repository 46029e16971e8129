import TransitPush.Delivery.Answer
import TransitPush.Feed.Event
import TransitPush.Table
/-!
# Counters

What has happened how many times: events received and rejected, pushes by their outcome, notices sent,
and subscriptions removed because of what their pushes were answered. How long pushes take is not
modelled.

* `Counters.value_bump`: a counter that goes up, goes up by one, and no other changes.
-/
namespace TransitPush

inductive NoticeKind where
  | heartbeat
  | terminated
deriving DecidableEq

/-- Why a subscription was removed after a push. -/
inductive Removal where
  | reset
  | failedPushes
deriving DecidableEq

inductive Counter where
  | received (kind : EventKind)
  | rejected (kind : EventKind)
  | pushed (outcome : Outcome)
  | noticed (kind : NoticeKind)
  | removed (why : Removal)
deriving DecidableEq

def NoticeKind.label : NoticeKind → String
  | heartbeat => "heartbeat"
  | terminated => "terminated"

def Removal.label : Removal → String
  | reset => "reset"
  | failedPushes => "failed_pushes"

namespace Counter

def labelled (name label value : String) : String :=
  name ++ "\x7b" ++ label ++ "=" ++ value ++ "\x7d"

/-- The full name of a counter. -/
def name : Counter → String
  | received kind => labelled "ferry_events_total" "kind" kind.label
  | rejected kind => labelled "ferry_events_rejected_total" "kind" kind.label
  | pushed outcome => labelled "ferry_pushes_total" "outcome" outcome.label
  | noticed kind => labelled "ferry_notifications_total" "type" kind.label
  | removed why => labelled "ferry_subscriptions_removed_total" "reason" why.label

end Counter

/-- How often each counter went up, by its name; a counter that never did is absent. -/
abbrev Counters := Table Nat

namespace Counters

def value (cs : Counters) (c : Counter) : Nat :=
  (cs.get? c.name).getD 0

def bump (cs : Counters) (c : Counter) : Counters :=
  cs.insert c.name (cs.value c + 1)

theorem value_bump (cs : Counters) (c d : Counter) :
    (cs.bump c).value d = if d.name = c.name then cs.value c + 1 else cs.value d := by
  unfold value bump
  rw [Table.get?_insert]
  split <;> rfl

end Counters
end TransitPush
