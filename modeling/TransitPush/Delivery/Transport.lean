import TransitPush.Delivery.Answer
import TransitPush.Table
/-!
# Transports

A transport posts payloads to addresses. What it answers may depend on the posts before.

* `PlayedTransport`: plays given answers back, and keeps the posts.
-/
namespace TransitPush

structure Post where
  address : String
  contentType : String
  body : ByteArray

class Transport (τ : Type) where
  name : String
  post : τ → Post → Answer × τ

/-- A transport that plays answers back, those of each address in their order, and then 200. -/
structure PlayedTransport where
  answers : Table (List Answer)
  posts : List Post

namespace PlayedTransport

def empty : PlayedTransport := ⟨∅, []⟩

/-- The transport with answers for an address, in place of those it had. -/
def withAnswers (t : PlayedTransport) (address : String) (answers : List Answer) :
    PlayedTransport :=
  { t with answers := t.answers.insert address answers }

def post (t : PlayedTransport) (p : Post) : Answer × PlayedTransport :=
  let t := { t with posts := t.posts ++ [p] }
  match t.answers.get? p.address with
  | some (answer :: rest) => (answer, t.withAnswers p.address rest)
  | _ => (.ok 200, t)

instance : Transport PlayedTransport where
  name := "played"
  post := post

end PlayedTransport
end TransitPush
