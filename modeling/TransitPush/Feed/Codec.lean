import TransitPush.Json.Format
/-!
# Payloads

A payload is a document in bytes, of limited size both when it is written and when it is read.
-/
namespace TransitPush

def contentType : String := "application/json"

/-- The greatest size of a payload in bytes, 16 MiB. -/
def maxPayloadSize : Nat := 16777216

inductive CodecError where
  | tooLarge (size : Nat)
  | json (f : Json.Fault)
deriving DecidableEq

def Json.Fault.message : Json.Fault → String
  | .malformed => "not JSON"
  | .truncated => "the text ends too early"
  | .mismatch => "not the expected shape"

def CodecError.message : CodecError → String
  | .tooLarge size =>
    "Payload size " ++ toString size ++ " exceeds maximum " ++ toString maxPayloadSize
  | .json f => "Serialization error: " ++ f.message

def sized (bytes : List UInt8) : Except CodecError ByteArray :=
  let payload : ByteArray := ⟨bytes.toArray⟩
  if payload.size ≤ maxPayloadSize then .ok payload else .error (.tooLarge payload.size)

namespace Json.Format

variable {α : Type}

/-- The payload of a value, unless that is too large. Mirrors `encode`. -/
def toPayload (f : Format α) (x : α) : Except CodecError ByteArray :=
  sized (f.encode x)

/-- Mirrors `decode`. -/
def ofPayload (f : Format α) (payload : ByteArray) : Except CodecError α :=
  if payload.size ≤ maxPayloadSize then
    (f.decode payload.data.toList).mapError .json
  else .error (.tooLarge payload.size)

end Json.Format
end TransitPush
