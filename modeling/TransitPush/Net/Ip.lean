import TransitPush.Text.Decimal
/-!
# Internet addresses

Addresses of four octets are written with points, addresses of eight groups with colons. Two colons
stand for any number of groups of zeros, and the last two groups may be written as four octets.

* `Ip.readV4`, `Ip.readV6`: the address at the front of a text, and what follows it.
* `Ip.toText`: the canonical form, in which the longest run of zero groups is left out.
-/
namespace TransitPush

inductive Ip where
  | v4 (a b c d : UInt8)
  | v6 (groups : List UInt16)
deriving DecidableEq

namespace Ip

/-! ## Reading -/

/-- Four numbers below 256 with points between them; none has a zero in front. -/
def readOctet (s : List Char) : Option (UInt8 × List Char) :=
  let ds := s.takeWhile Char.isDigit
  let n := Text.valueOf 10 Text.decimalDigit ds
  let padded := ds.head? = some '0' ∧ 1 < ds.length
  if ds.isEmpty ∨ 3 < ds.length ∨ padded ∨ 255 < n then none
  else some (n.toUInt8, s.dropWhile Char.isDigit)

def readChar (c : Char) : List Char → Option (List Char)
  | d :: rest => if d = c then some rest else none
  | [] => none

def readV4 (s : List Char) : Option ((UInt8 × UInt8 × UInt8 × UInt8) × List Char) := do
  let (a, s) ← readOctet s
  let (b, s) ← readOctet (← readChar '.' s)
  let (c, s) ← readOctet (← readChar '.' s)
  let (d, s) ← readOctet (← readChar '.' s)
  some ((a, b, c, d), s)

/-- A group of one to four hexadecimal digits. -/
def readGroup (s : List Char) : Option (UInt16 × List Char) :=
  let ds := s.takeWhile Text.isHexDigit
  if ds.isEmpty ∨ 4 < ds.length then none
  else some ((Text.valueOf 16 Text.hexDigit ds).toUInt16, s.dropWhile Text.isHexDigit)

def groupOf (hi lo : UInt8) : UInt16 :=
  (256 * hi.toNat + lo.toNat).toUInt16

/-- At most `places` groups with colons between them. Four octets end them, and count as two; `true`
says that they did. -/
def readGroups (leading : Bool) : Nat → List Char → (List UInt16 × Bool) × List Char
  | 0, s => (([], false), s)
  | n + 1, s =>
    match if leading then some s else readChar ':' s with
    | none => (([], false), s)
    | some inner =>
      match if n = 0 then none else readV4 inner with
      | some ((a, b, c, d), rest) => (([groupOf a b, groupOf c d], true), rest)
      | none =>
        match readGroup inner with
        | none => (([], false), s)
        | some (g, rest) =>
          let ((gs, octets), rest) := readGroups false n rest
          ((g :: gs, octets), rest)

/-- Eight groups, or fewer around two colons. -/
def readV6 (s : List Char) : Option (List UInt16 × List Char) :=
  let ((head, octets), rest) := readGroups true 8 s
  if head.length = 8 then some (head, rest)
  else if octets then none
  else
    match rest with
    | ':' :: ':' :: rest =>
      let ((tail, _), rest) := readGroups true (7 - head.length) rest
      some (head ++ List.replicate (8 - head.length - tail.length) 0 ++ tail, rest)
    | _ => none

/-! ## Writing -/

/-- Groups in hexadecimal digits with colons between them. -/
def groupsText (gs : List UInt16) : String :=
  ":".intercalate (gs.map fun g => String.ofList (Nat.toDigits 16 g.toNat))

/-- The number of zero groups from a place on. -/
def zerosAt (gs : List UInt16) (i : Nat) : Nat :=
  ((gs.drop i).takeWhile (· = 0)).length

/-- Where the first of the longest runs of zero groups begins, and its length. -/
def longestZeros (gs : List UInt16) : Nat × Nat :=
  (List.range gs.length).foldl
    (fun best i => if best.2 < zerosAt gs i then (i, zerosAt gs i) else best) (0, 0)

def octetsText (a b c d : UInt8) : String :=
  ".".intercalate ([a, b, c, d].map fun o => toString o.toNat)

def octetsOf (g : UInt16) : UInt8 × UInt8 :=
  ((g.toNat / 256).toUInt8, (g.toNat % 256).toUInt8)

/-- The canonical text of an address. An address of four octets that stands in eight groups is
written in octets. -/
def toText : Ip → String
  | v4 a b c d => octetsText a b c d
  | v6 gs =>
    match gs with
    | [0, 0, 0, 0, 0, 0xFFFF, hi, lo] =>
      let (a, b) := octetsOf hi
      let (c, d) := octetsOf lo
      "::ffff:" ++ octetsText a b c d
    | gs =>
      let (start, length) := longestZeros gs
      if length ≤ 1 then groupsText gs
      else groupsText (gs.take start) ++ "::" ++ groupsText (gs.drop (start + length))

end Ip
end TransitPush
