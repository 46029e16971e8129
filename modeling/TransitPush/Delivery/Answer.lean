import TransitPush.Feed.Codec
/-!
# Answers to posts

A post is answered by a status or ends in an error. What the answer means for a subscription is its
outcome: 200 accepts the push, 205 asks to be sent nothing more, and everything else is a failure.
-/
namespace TransitPush

/-- Why a post got no status. -/
inductive TransportError where
  | timeout
  | invalidAddress (address : String)
  | request (reason : String)
  | codec (e : CodecError)
  | other (reason : String)
deriving DecidableEq

def TransportError.message : TransportError → String
  | .timeout => "Request timed out"
  | .invalidAddress address => "Invalid push address: " ++ address
  | .request reason => "Request failed: " ++ reason
  | .codec e => "Codec error: " ++ e.message
  | .other reason => reason

abbrev Answer := Except TransportError UInt16

/-- How a push ended for its subscription. Mirrors `PushOutcome`. -/
inductive Outcome where
  | delivered
  | reset
  | failed (status : Option UInt16)
deriving DecidableEq

namespace Outcome

/-- Mirrors `from_result`. -/
def ofAnswer : Answer → Outcome
  | .error _ => failed none
  | .ok status =>
    if status = 200 then delivered
    else if status = 205 then reset
    else failed (some status)

def label : Outcome → String
  | delivered => "delivered"
  | reset => "reset"
  | failed _ => "failed"

end Outcome
end TransitPush
