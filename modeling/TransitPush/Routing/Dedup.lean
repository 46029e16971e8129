import TransitPush.Digest.Sha256
import TransitPush.Feed.Codec
import TransitPush.Feed.Wire
import TransitPush.Subscription
import TransitPush.Supply
import TransitPush.TimestampMap
/-!
# Pushes already made

Each push has a fingerprint, made of its subscription and what the event says. A push with the same
fingerprint as one less than `ttl` before is a repetition and is not made (section 4.3 of the
specification).

* `fingerprint`: number and version of a situation, length and digest of a journey update.
* `DedupCache.shouldSend`: whether a push is to be made, which records it.
* `DedupCache.evictExpired`: forgets fingerprints older than `ttl`.
-/
namespace TransitPush

/-- The fingerprint of an event for a subscription. An event with nothing to compare, such as a
situation without number, gets a name that is new each time. Mirrors `fingerprint`. -/
def fingerprint (fresh : String) (id : SubscriptionId) (e : Event) : String :=
  match e with
  | .situation s =>
    let version := match s.version with
      | some v => toString v.toNat
      | none => ""
    id ++ "_" ++ s.number.getD fresh ++ "_" ++ version
  | .journey _ =>
    match Event.format.toPayload e with
    | .ok content =>
      let digest := Sha256.hexText (Sha256.digest content.data.toList)
      id ++ "_" ++ toString content.size ++ "_" ++ digest
    | .error _ => id ++ "_" ++ fresh

structure DedupCache where
  ttl : TimeDelta
  sent : TimestampMap
  fresh : Supply

namespace DedupCache

/-- How long fingerprints are kept by default: a day. -/
def defaultTtl : Interval := .ofSeconds 86400

def empty (ttl : Interval) (fresh : Supply) : DedupCache :=
  ⟨ttl.toDelta, ∅, fresh⟩

/-- Whether an event is to be pushed to a subscription; if so the push is recorded. Mirrors
`should_send`. -/
def shouldSend (c : DedupCache) (id : SubscriptionId) (e : Event) (now : Timestamp) :
    Bool × DedupCache :=
  let (name, fresh) := c.fresh.draw
  let (send, sent) := c.sent.check (fingerprint name id e) now c.ttl
  (send, { c with sent, fresh })

/-- Forgets the fingerprints recorded more than `ttl` before, and says how many. Mirrors
`evict_expired`. -/
def evictExpired (c : DedupCache) (now : Timestamp) : Nat × DedupCache :=
  match now.add? (-c.ttl) with
  | none => (0, c)
  | some cutoff =>
    let (removed, sent) := c.sent.retainFrom cutoff
    (removed, { c with sent })

end DedupCache
end TransitPush
