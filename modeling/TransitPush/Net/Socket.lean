import TransitPush.Net.Ip
/-!
# Socket addresses

An address and a port, which a server listens at. Addresses of eight groups stand in brackets, and
may name a scope there.

* `SocketAddress.ofText?`: host names are not resolved and thus refused.
* `SocketAddress.toText`: the canonical form.
-/
namespace TransitPush

structure SocketAddress where
  ip : Ip
  scope : UInt32
  port : UInt16
deriving DecidableEq

namespace SocketAddress

/-- A number below `bound` in decimal digits, perhaps with zeros in front. -/
def readNumber (bound : Nat) (s : List Char) : Option (Nat × List Char) :=
  let ds := s.takeWhile Char.isDigit
  let n := Text.valueOf 10 Text.decimalDigit ds
  if ds.isEmpty ∨ bound ≤ n then none else some (n, s.dropWhile Char.isDigit)

/-- A colon and a port, which end the text. -/
def readPort (s : List Char) : Option UInt16 := do
  let (n, rest) ← readNumber UInt16.size (← Ip.readChar ':' s)
  if rest.isEmpty then some n.toUInt16 else none

/-- A percent sign and a scope; no scope is scope zero. -/
def readScope : List Char → Option (UInt32 × List Char)
  | '%' :: s => (readNumber UInt32.size s).map fun (n, rest) => (n.toUInt32, rest)
  | s => some (0, s)

def readV4? (s : List Char) : Option SocketAddress := do
  let ((a, b, c, d), s) ← Ip.readV4 s
  some ⟨.v4 a b c d, 0, ← readPort s⟩

def readV6? (s : List Char) : Option SocketAddress := do
  let (groups, s) ← Ip.readV6 (← Ip.readChar '[' s)
  let (scope, s) ← readScope s
  some ⟨.v6 groups, scope, ← readPort (← Ip.readChar ']' s)⟩

def ofText? (text : String) : Option SocketAddress :=
  match readV4? text.toList with
  | some a => some a
  | none => readV6? text.toList

def toText (a : SocketAddress) : String :=
  let host := match a.ip with
    | .v4 .. => a.ip.toText
    | .v6 _ =>
      let scope := if a.scope = 0 then "" else "%" ++ toString a.scope.toNat
      "[" ++ a.ip.toText ++ scope ++ "]"
  host ++ ":" ++ toString a.port.toNat

end SocketAddress
end TransitPush
