import TransitPush.Net.Ip
import TransitPush.Text.Percent
/-!
# Addresses to post to

A payload can be posted to an absolute address of the schemes `http` and `https` with a valid host and
port. Anything else is refused before a connection is tried.

* `Url.isHost`: names, addresses of four octets and of eight groups.
* `Url.isPostable`: the scheme, host and port are in order.
-/
namespace TransitPush.Url

/-! ## Parts -/

/-- A control character or a space. -/
def isControl (c : Char) : Bool :=
  c.toNat ≤ 0x20

/-- The address without controls and spaces at its ends, and without tabs and line breaks. -/
def cleaned (s : List Char) : List Char :=
  let s := ((s.dropWhile isControl).reverse.dropWhile isControl).reverse
  s.filter fun c => c ≠ '\t' ∧ c ≠ '\n' ∧ c ≠ '\r'

def isSlash (c : Char) : Bool :=
  c = '/' || c = '\\'

def endsAuthority (c : Char) : Bool :=
  isSlash c || c = '?' || c = '#'

/-- What follows the scheme, if that is one to post with. -/
def afterScheme? (s : List Char) : Option (List Char) :=
  let scheme := (s.takeWhile (· ≠ ':')).map Char.toLower
  match s.dropWhile (· ≠ ':') with
  | _ :: rest => if scheme = "http".toList ∨ scheme = "https".toList then some rest else none
  | [] => none

def authority (s : List Char) : List Char :=
  (s.dropWhile isSlash).takeWhile fun c => !endsAuthority c

/-- What follows the last at sign, which ends the user. -/
def withoutUser (s : List Char) : List Char :=
  (s.reverse.takeWhile (· ≠ '@')).reverse

/-- Host and port of an authority. The colons in brackets belong to the host. -/
def splitPort (inBrackets : Bool) : List Char → List Char × Option (List Char)
  | [] => ([], none)
  | c :: rest =>
    if c = ':' ∧ !inBrackets then ([], some rest)
    else
      let (host, port) := splitPort (if c = '[' then true else if c = ']' then false else inBrackets) rest
      (c :: host, port)

/-! ## Hosts and ports -/

/-- The characters that no name of a host has, and those that no request can carry in one. -/
def isForbidden (c : Char) : Bool :=
  c.toNat ≤ 0x20 || 0x7F ≤ c.toNat || "#%/:<>?@[\\]^|\"\x60\x7b\x7d".toList.contains c

def pieces : List Char → List (List Char)
  | [] => [[]]
  | c :: rest =>
    match pieces rest with
    | piece :: more => if c = '.' then [] :: piece :: more else (c :: piece) :: more
    | [] => [[c]]

/-- The pieces of a name; a point at its end does not count. -/
def piecesOf (s : List Char) : List (List Char) :=
  let ps := pieces s
  if ps.getLast? = some [] ∧ 1 < ps.length then ps.dropLast else ps

/-- The number that a piece of an address stands for: hexadecimal after `0x`, octal after `0`. -/
def pieceNumber? (s : List Char) : Option Nat :=
  match s with
  | [] => none
  | '0' :: x :: ds =>
    if x = 'x' ∨ x = 'X' then
      if ds.all Text.isHexDigit then some (Text.valueOf 16 Text.hexDigit ds) else none
    else if (x :: ds).all fun d => '0' ≤ d ∧ d ≤ '7' then
      some (Text.valueOf 8 Text.decimalDigit (x :: ds))
    else none
  | ds => if ds.all Char.isDigit then some (Text.valueOf 10 Text.decimalDigit ds) else none

/-- A name whose last piece is a number is an address of four octets. -/
def endsInNumber (ps : List (List Char)) : Bool :=
  match ps.getLast? with
  | some p => (!p.isEmpty && p.all Char.isDigit) || (pieceNumber? p).isSome
  | none => false

/-- At most four numbers; all but the last are octets, and the last fills the rest. -/
def isOctets (ps : List (List Char)) : Bool :=
  match ps.mapM pieceNumber? with
  | some ns =>
    ns.length ≤ 4 && ns.dropLast.all (· ≤ 255) && ns.getLast?.any (· < Nat.pow 256 (5 - ns.length))
  | none => false

/-- A piece in which characters beyond ASCII are encoded. -/
def isEncoded (piece : List Char) : Bool :=
  "xn--".toList.isPrefixOf (piece.map Char.toLower)

/-- A name in ASCII that encodes no other, an address of four octets, or an address of eight groups
in brackets. -/
def isHost (s : List Char) : Bool :=
  match s with
  | '[' :: rest =>
    match Ip.readV6 rest with
    | some (_, [']']) => true
    | _ => false
  | s =>
    match Text.percentDecodedText? (String.ofList s) with
    | none => false
    | some name =>
      let cs := name.toList
      !cs.isEmpty && !cs.any isForbidden && !(pieces cs).any isEncoded &&
        (!endsInNumber (piecesOf cs) || isOctets (piecesOf cs))

/-- A number of 16 bits, or nothing. -/
def isPort (s : List Char) : Bool :=
  s.all Char.isDigit && Text.valueOf 10 Text.decimalDigit s < UInt16.size

def isPostable (address : String) : Bool :=
  match afterScheme? (cleaned address.toList) with
  | none => false
  | some rest =>
    let (host, port) := splitPort false (withoutUser (authority rest))
    isHost host && port.all isPort

end TransitPush.Url
