import TransitPush.Text.Decimal
/-!
# Percent encoding

In a path a byte may be written as a percent sign and two hexadecimal digits. A percent sign that is
not followed by two of them stands for itself.
-/
namespace TransitPush.Text

/-- The byte of two hexadecimal digits, given as bytes of text. -/
def hexByte? (a b : UInt8) : Option UInt8 :=
  let x := Char.ofNat a.toNat
  let y := Char.ofNat b.toNat
  if isHexDigit x && isHexDigit y then some (16 * hexDigit x + hexDigit y).toUInt8 else none

def percentDecoded : List UInt8 → List UInt8
  | 0x25 :: a :: b :: rest =>
    match hexByte? a b with
    | some byte => byte :: percentDecoded rest
    | none => 0x25 :: percentDecoded (a :: b :: rest)
  | byte :: rest => byte :: percentDecoded rest
  | [] => []

/-- The text that a percent-encoded text stands for, if it is one. -/
def percentDecodedText? (s : String) : Option String :=
  String.fromUTF8? ⟨(percentDecoded s.toUTF8.data.toList).toArray⟩

end TransitPush.Text
