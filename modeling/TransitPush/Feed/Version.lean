import TransitPush.Text.Decimal
/-!
# Protocol versions

The version of an envelope, written `major.minor`.
-/
namespace TransitPush

structure Version where
  major : UInt8
  minor : UInt8
deriving DecidableEq

inductive VersionError where
  | noPoint (text : String)
  | badMajor (text : String)
  | badMinor (text : String)
deriving DecidableEq

def VersionError.message : VersionError → String
  | .noPoint text => "Invalid version: " ++ text
  | .badMajor text => "Invalid major version: " ++ text
  | .badMinor text => "Invalid minor version: " ++ text

namespace Version

/-- The version that envelopes are written in. -/
def current : Version := ⟨2, 0⟩

def toText (v : Version) : String :=
  toString v.major.toNat ++ "." ++ toString v.minor.toNat

/-- A number below 256. -/
def number? (s : List Char) : Option UInt8 :=
  (Text.natBelow? 256 s).map Nat.toUInt8

/-- The version that a text stands for; the first point parts its numbers. -/
def ofText? (text : String) : Except VersionError Version :=
  let s := text.toList
  match s.dropWhile (· ≠ '.') with
  | [] => .error (.noPoint text)
  | _ :: after =>
    match number? (s.takeWhile (· ≠ '.')), number? after with
    | none, _ => .error (.badMajor text)
    | some _, none => .error (.badMinor text)
    | some major, some minor => .ok ⟨major, minor⟩

end Version
end TransitPush
