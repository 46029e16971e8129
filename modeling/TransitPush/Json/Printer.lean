import TransitPush.Json.Value
/-!
# Written JSON

The compact text of a value, as UTF-8 bytes: no blanks, members in their order. In a text only
`"`, `\` and the characters below U+0020 are escaped, the latter by their short form where they
have one and else by four lower-case hexadecimal digits.
-/
namespace TransitPush.Json

def ascii (cs : List Char) : List UInt8 :=
  cs.map fun c => c.toNat.toUInt8

/-- The lower-case hexadecimal digit of a number below sixteen. -/
def hexDigit (n : UInt8) : UInt8 :=
  if n < 10 then 48 + n else 87 + n

/-- One byte of a text as it is written. Bytes of characters beyond ASCII stand for themselves. -/
def escape (b : UInt8) : List UInt8 :=
  if b = 0x22 then ascii ['\\', '"']
  else if b = 0x5C then ascii ['\\', '\\']
  else if b = 0x08 then ascii ['\\', 'b']
  else if b = 0x09 then ascii ['\\', 't']
  else if b = 0x0A then ascii ['\\', 'n']
  else if b = 0x0C then ascii ['\\', 'f']
  else if b = 0x0D then ascii ['\\', 'r']
  else if b < 0x20 then ascii ['\\', 'u', '0', '0'] ++ [hexDigit (b / 16), hexDigit (b % 16)]
  else [b]

def quoted (s : String) : List UInt8 :=
  0x22 :: (s.toUTF8.data.toList.flatMap escape ++ [0x22])

/-- The decimal digits of a whole number, after a minus sign if it is negative. -/
def wholeChars (n : Int) : List Char :=
  if n < 0 then '-' :: Nat.toDigits 10 n.natAbs else Nat.toDigits 10 n.natAbs

def numberBytes : Number → List UInt8
  | .whole n _ => ascii (wholeChars n)
  | .double d => ascii d.chars

mutual

def bytes : Json → List UInt8
  | .null => ascii ['n', 'u', 'l', 'l']
  | .bool true => ascii ['t', 'r', 'u', 'e']
  | .bool false => ascii ['f', 'a', 'l', 's', 'e']
  | .number n => numberBytes n
  | .text s => quoted s
  | .list items => 0x5B :: (itemsBytes items ++ [0x5D])
  | .object members => 0x7B :: (membersBytes members ++ [0x7D])

/-- Items with a comma between any two. -/
def itemsBytes : List Json → List UInt8
  | [] => []
  | [x] => bytes x
  | x :: y :: rest => bytes x ++ 0x2C :: itemsBytes (y :: rest)

/-- Members `key:value` with a comma between any two. -/
def membersBytes : List (String × Json) → List UInt8
  | [] => []
  | [(k, v)] => quoted k ++ 0x3A :: bytes v
  | (k, v) :: m :: rest => quoted k ++ 0x3A :: (bytes v ++ 0x2C :: membersBytes (m :: rest))

end

/-- The compact text as bytes in a row. -/
def encoded (v : Json) : ByteArray :=
  ⟨v.bytes.toArray⟩

end TransitPush.Json
