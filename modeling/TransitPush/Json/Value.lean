import TransitPush.Json.Double
import TransitPush.Table
/-!
# JSON values

A JSON value as it is held and written. Objects keep the order of their members, and a key may
occur more than once; `Json.settled` gives the form with the last value of each key, in key order.
-/
namespace TransitPush

/-- A whole number fits 64 bits: it is at least `-2 ^ 63` and less than `2 ^ 64`. -/
def FitsWord (n : Int) : Prop :=
  -9223372036854775808 ≤ n ∧ n < 18446744073709551616

instance (n : Int) : Decidable (FitsWord n) :=
  inferInstanceAs (Decidable (_ ∧ _))

/-- A number is whole if it was written without point and exponent and fits 64 bits, signed or
unsigned; any other number is a double. -/
inductive Number where
  | whole (n : Int) (fits : FitsWord n)
  | double (d : Double)
deriving DecidableEq

inductive Json where
  | null
  | bool (b : Bool)
  | number (n : Number)
  | text (s : String)
  | list (items : List Json)
  | object (members : List (String × Json))

namespace Number

def ofUInt64 (n : UInt64) : Number :=
  .whole n.toNat (by have := n.toNat_lt; unfold FitsWord; omega)

/-- The number as a natural number below `bound`, if it is one. -/
def natBelow? (n : Number) (bound : Nat) : Option Nat :=
  match n with
  | .whole n _ => if 0 ≤ n ∧ n < bound then some n.toNat else none
  | .double _ => none

/-- The double nearest to a whole number. -/
def ofWhole? (n : Int) : Option Double :=
  (Double.nearest? n.natAbs 1).map (·.withSign (decide (n < 0)))

def double? : Number → Option Double
  | .whole n _ => ofWhole? n
  | .double d => some d

end Number

namespace Json

/-! ## Equality -/

mutual

def decEq : (a b : Json) → Decidable (a = b)
  | .null, .null => isTrue rfl
  | .bool a, .bool b =>
    if h : a = b then isTrue (by rw [h]) else isFalse fun e => h (Json.bool.inj e)
  | .number a, .number b =>
    if h : a = b then isTrue (by rw [h]) else isFalse fun e => h (Json.number.inj e)
  | .text a, .text b =>
    if h : a = b then isTrue (by rw [h]) else isFalse fun e => h (Json.text.inj e)
  | .list a, .list b =>
    match decEqItems a b with
    | isTrue h => isTrue (by rw [h])
    | isFalse h => isFalse fun e => h (Json.list.inj e)
  | .object a, .object b =>
    match decEqMembers a b with
    | isTrue h => isTrue (by rw [h])
    | isFalse h => isFalse fun e => h (Json.object.inj e)
  | .null, .bool _ | .null, .number _ | .null, .text _ | .null, .list _ | .null, .object _
  | .bool _, .null | .bool _, .number _ | .bool _, .text _ | .bool _, .list _ | .bool _, .object _
  | .number _, .null | .number _, .bool _ | .number _, .text _ | .number _, .list _
  | .number _, .object _
  | .text _, .null | .text _, .bool _ | .text _, .number _ | .text _, .list _ | .text _, .object _
  | .list _, .null | .list _, .bool _ | .list _, .number _ | .list _, .text _ | .list _, .object _
  | .object _, .null | .object _, .bool _ | .object _, .number _ | .object _, .text _
  | .object _, .list _ => isFalse (by intro h; cases h)

def decEqItems : (a b : List Json) → Decidable (a = b)
  | [], [] => isTrue rfl
  | [], _ :: _ | _ :: _, [] => isFalse (by intro h; cases h)
  | x :: xs, y :: ys =>
    match decEq x y, decEqItems xs ys with
    | isTrue h, isTrue t => isTrue (by rw [h, t])
    | isFalse h, _ => isFalse fun e => h (List.cons.inj e).1
    | _, isFalse t => isFalse fun e => t (List.cons.inj e).2

def decEqMembers : (a b : List (String × Json)) → Decidable (a = b)
  | [], [] => isTrue rfl
  | [], _ :: _ | _ :: _, [] => isFalse (by intro h; cases h)
  | (k, x) :: xs, (l, y) :: ys =>
    if hk : k = l then
      match decEq x y, decEqMembers xs ys with
      | isTrue h, isTrue t => isTrue (by rw [hk, h, t])
      | isFalse h, _ => isFalse fun e => h (Prod.mk.inj (List.cons.inj e).1).2
      | _, isFalse t => isFalse fun e => t (List.cons.inj e).2
    else isFalse fun e => hk (Prod.mk.inj (List.cons.inj e).1).1

end

instance : DecidableEq Json := decEq

/-! ## Free values -/

mutual

/-- The value with each object's members in ascending key order, the last of each key only. -/
def settled : Json → Json
  | .list items => .list (settledItems items)
  | .object members => .object ((settledMembers members).foldl (fun ms m => Assoc.put m.1 m.2 ms) [])
  | other => other

def settledItems : List Json → List Json
  | [] => []
  | x :: xs => settled x :: settledItems xs

def settledMembers : List (String × Json) → List (String × Json)
  | [] => []
  | (k, v) :: rest => (k, settled v) :: settledMembers rest

end

/-- The value of the first member of that name. -/
def member? (key : String) : Json → Option Json
  | .object members => members.lookup key
  | _ => none

end Json
end TransitPush
