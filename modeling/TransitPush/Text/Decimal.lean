/-!
# Natural numbers in text

A natural number is written in decimal digits, perhaps after a plus sign and with zeros in front.
-/
namespace TransitPush.Text

/-- The number that a row of digits stands for in a base. -/
def valueOf (base : Nat) (digit : Char → Nat) (ds : List Char) : Nat :=
  ds.foldl (fun n d => base * n + digit d) 0

def decimalDigit (c : Char) : Nat :=
  c.toNat - 48

def isHexDigit (c : Char) : Bool :=
  c.isDigit || 'a' ≤ c && c ≤ 'f' || 'A' ≤ c && c ≤ 'F'

def hexDigit (c : Char) : Nat :=
  if c.isDigit then c.toNat - 48 else c.toLower.toNat - 87

/-- The number below `bound` that a text stands for. -/
def natBelow? (bound : Nat) (s : List Char) : Option Nat :=
  let ds := match s with
    | '+' :: r => r
    | s => s
  let n := valueOf 10 decimalDigit ds
  if !ds.isEmpty && ds.all Char.isDigit && n < bound then some n else none

end TransitPush.Text
