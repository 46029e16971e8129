import TransitPush.Json.Double
import TransitPush.Text.Decimal
/-!
# TOML

The part of TOML that settings are written in: tables under headers in brackets, and keys with texts,
numbers, truth values and lists. No key and no table may occur twice.

* `Toml.Document.ofText?`: the document that a text holds.
* `Toml.Document.table?`: the table of a header.
-/
namespace TransitPush.Toml

inductive Value where
  | text (s : String)
  | whole (n : Int)
  | real (digits : String)
  | bool (b : Bool)
  | list (items : List Value)

/-- Keys with their values, in the order of the text. -/
abbrev Entries := List (String × Value)

/-- The keys before the first header, and the tables. -/
structure Document where
  root : Entries
  tables : List (String × Entries)

/-! ## Blanks and comments -/

/-- A space or a tab. -/
def isBlank (c : Char) : Bool :=
  c = ' ' || c = '\t'

/-- A control character that stands nowhere but at the end of a line; a tab is none. -/
def isControl (c : Char) : Bool :=
  c.toNat < 0x20 && c ≠ '\t' || c.toNat = 0x7F

def skipBlanks (s : List Char) : List Char :=
  s.dropWhile isBlank

/-- The text after a comment, which ends before the end of its line. -/
def skipComment : List Char → List Char
  | '#' :: s => s.dropWhile fun c => !isControl c
  | s => s

def lineBreak? : List Char → Option (List Char)
  | '\n' :: s => some s
  | '\r' :: '\n' :: s => some s
  | _ => none

/-- What follows the rest of a line, on which nothing but a comment stands. -/
def restOfLine? (s : List Char) : Option (List Char) :=
  match skipComment (skipBlanks s) with
  | [] => some []
  | s => lineBreak? s

/-- The text after blanks, comments and line breaks. -/
def skipLines : Nat → List Char → List Char
  | 0, s => s
  | fuel + 1, s =>
    let s := skipComment (skipBlanks s)
    match lineBreak? s with
    | some s => skipLines fuel s
    | none => s

/-! ## Texts and keys -/

/-- A number of hexadecimal digits, as a character. -/
def escapedChar? (digits : Nat) (s : List Char) : Option (Char × List Char) :=
  let ds := s.take digits
  let n := Text.valueOf 16 Text.hexDigit ds
  if ds.length = digits ∧ ds.all Text.isHexDigit ∧ n.isValidChar then
    some (Char.ofNat n, s.drop digits)
  else none

/-- The characters of a quoted text up to its closing quote, and what follows it. -/
def quoted : Nat → List Char → Option (List Char × List Char)
  | 0, _ => none
  | _, [] => none
  | _, '"' :: s => some ([], s)
  | fuel + 1, '\\' :: e :: s =>
    let escaped : Option (Char × List Char) := match e with
      | 'b' => some ('\x08', s)
      | 't' => some ('\t', s)
      | 'n' => some ('\n', s)
      | 'f' => some ('\x0c', s)
      | 'r' => some ('\r', s)
      | '"' => some ('"', s)
      | '\\' => some ('\\', s)
      | 'u' => escapedChar? 4 s
      | 'U' => escapedChar? 8 s
      | _ => none
    match escaped with
    | none => none
    | some (c, s) => (quoted fuel s).map fun (cs, rest) => (c :: cs, rest)
  | fuel + 1, c :: s =>
    if isControl c || c = '\\' then none
    else (quoted fuel s).map fun (cs, rest) => (c :: cs, rest)

/-- A text between quotes, without escapes between single ones. -/
def readText? : List Char → Option (String × List Char)
  | '"' :: s => (quoted (s.length + 1) s).map fun (cs, rest) => (String.ofList cs, rest)
  | '\'' :: s =>
    let cs := s.takeWhile fun c => c ≠ '\'' ∧ !isControl c
    match s.drop cs.length with
    | '\'' :: rest => some (String.ofList cs, rest)
    | _ => none
  | _ => none

def isKeyChar (c : Char) : Bool :=
  c.isAlphanum || c = '_' || c = '-'

def readKey? (s : List Char) : Option (String × List Char) :=
  let cs := s.takeWhile isKeyChar
  if cs.isEmpty then readText? s else some (String.ofList cs, s.dropWhile isKeyChar)

/-! ## Numbers -/

/-- Digits with single underscores between them. -/
def isGrouped (isDigit : Char → Bool) : List Char → Bool
  | [] => false
  | [c] => isDigit c
  | c :: '_' :: s => isDigit c && isGrouped isDigit s
  | c :: s => isDigit c && isGrouped isDigit s

def groupedValue (base : Nat) (ds : List Char) : Nat :=
  Text.valueOf base Text.hexDigit (ds.filter (· ≠ '_'))

/-- A natural number in decimal digits, without zeros in front, or in another base. -/
def natural? (signed : Bool) : List Char → Option Nat
  | '0' :: 'x' :: ds =>
    if !signed && isGrouped Text.isHexDigit ds then some (groupedValue 16 ds) else none
  | '0' :: 'o' :: ds =>
    if !signed && isGrouped (fun c => '0' ≤ c && c ≤ '7') ds then some (groupedValue 8 ds) else none
  | '0' :: 'b' :: ds =>
    if !signed && isGrouped (fun c => c = '0' || c = '1') ds then some (groupedValue 2 ds) else none
  | ds =>
    if isGrouped Char.isDigit ds && (ds.length = 1 || ds.head? ≠ some '0') then
      some (groupedValue 10 ds)
    else none

def sign : List Char → Option Bool × List Char
  | '-' :: s => (some true, s)
  | '+' :: s => (some false, s)
  | s => (none, s)

/-- A whole number of 64 bits. -/
def whole? (s : List Char) : Option Int := do
  let (negative, ds) := sign s
  let n ← natural? negative.isSome ds
  let v : Int := if negative = some true then -n else n
  if -9223372036854775808 ≤ v ∧ v < 9223372036854775808 then some v else none

/-- A number with a point or an exponent: its whole part and fraction as one number, and the power of
ten that this is multiplied by. -/
structure Literal where
  negative : Bool
  significand : Nat
  exponent : Int

def digits? (s : List Char) : Option (List Char) :=
  if isGrouped Char.isDigit s then some (s.filter (· ≠ '_')) else none

/-- An exponent after its letter; without a letter it is zero. -/
def exponent? : List Char → Option Int
  | [] => some 0
  | _ :: s => do
    let (negative, ds) := sign s
    let n := Text.valueOf 10 Text.decimalDigit (← digits? ds)
    some (if negative = some true then -n else n)

/-- The literal that a text is. The whole part has no zeros in front, and a point has digits on both
sides. -/
def literal? (s : List Char) : Option Literal := do
  let (negative, s) := sign s
  let before := s.takeWhile fun c => c ≠ '.' ∧ c ≠ 'e' ∧ c ≠ 'E'
  let whole ← natural? true before
  let literal (fraction s : List Char) : Option Literal := do
    let n := Text.valueOf 10 Text.decimalDigit fraction
    some ⟨negative = some true, whole * Nat.pow 10 fraction.length + n,
      (← exponent? s) - fraction.length⟩
  match s.drop before.length with
  | [] => none
  | '.' :: s =>
    let fraction := s.takeWhile fun c => c ≠ 'e' ∧ c ≠ 'E'
    literal (← digits? fraction) (s.drop fraction.length)
  | s => literal [] s

/-- The number is beyond all doubles. How many digits it has decides unless that is close. -/
def Literal.isHuge (l : Literal) : Bool :=
  let size := (Nat.toDigits 10 l.significand).length + l.exponent
  if l.significand = 0 ∨ size < 300 then false
  else if 320 < size then true
  else
    let up := Nat.pow 10 l.exponent.toNat
    let down := Nat.pow 10 (-l.exponent).toNat
    (Double.nearest? (l.significand * up) down).isNone

/-- A real number: a literal that is not too large, however small it is, or one of the names of
numbers that are none. -/
def isReal (s : List Char) : Bool :=
  let name := (sign s).2
  name = "inf".toList || name = "nan".toList ||
    (literal? s).any fun l => l.negative || !l.isHuge

def isScalarChar (c : Char) : Bool :=
  c.isAlphanum || c = '_' || c = '-' || c = '+' || c = '.'

def scalar? (s : List Char) : Option Value :=
  if s = "true".toList then some (.bool true)
  else if s = "false".toList then some (.bool false)
  else
    match whole? s with
    | some n => some (.whole n)
    | none => if isReal s then some (.real (String.ofList s)) else none

/-! ## Values -/

def maxDepth : Nat := 79

mutual

/-- A value in which lists are nested at most `depth` deep, and what follows it. -/
def readValue? (depth : Nat) : Nat → List Char → Option (Value × List Char)
  | 0, _ => none
  | fuel + 1, s =>
    match s with
    | '[' :: s =>
      if depth = 0 then none
      else (readItems? (depth - 1) fuel s).map fun (vs, rest) => (.list vs, rest)
    | '"' :: _ | '\'' :: _ => (readText? s).map fun (t, rest) => (.text t, rest)
    | s => (scalar? (s.takeWhile isScalarChar)).map fun v => (v, s.dropWhile isScalarChar)

/-- The items of a list up to its closing bracket, and what follows it. Lines may break between
them, and a comma may stand before the bracket. -/
def readItems? (depth : Nat) : Nat → List Char → Option (List Value × List Char)
  | 0, _ => none
  | fuel + 1, s =>
    match skipLines s.length s with
    | ']' :: rest => some ([], rest)
    | s =>
      match readValue? depth fuel s with
      | none => none
      | some (v, rest) =>
        match skipLines rest.length rest with
        | ']' :: rest => some ([v], rest)
        | ',' :: rest => (readItems? depth fuel rest).map fun (vs, rest) => (v :: vs, rest)
        | _ => none

end

/-! ## Documents -/

namespace Document

def empty : Document := ⟨[], []⟩

def value? (d : Document) (key : String) : Option Value :=
  d.root.lookup key

def table? (d : Document) (name : String) : Option Entries :=
  d.tables.lookup name

/-- The document with one more table, if nothing has its name. -/
def withTable? (d : Document) (name : String) : Option Document :=
  if (d.table? name).isSome ∨ (d.value? name).isSome then none
  else some { d with tables := d.tables ++ [(name, [])] }

/-- The document with a key in its last table, or before the first header; the key must be new
there. -/
def withEntry? (d : Document) (key : String) (v : Value) : Option Document :=
  match d.tables.getLast? with
  | none => if (d.value? key).isSome then none else some { d with root := d.root ++ [(key, v)] }
  | some (name, entries) =>
    if (entries.lookup key).isSome then none
    else some { d with tables := d.tables.dropLast ++ [(name, entries ++ [(key, v)])] }

/-- A header after its opening bracket, and what follows its line. -/
def readHeader? (s : List Char) : Option (String × List Char) := do
  let (name, s) ← readKey? (skipBlanks s)
  match skipBlanks s with
  | ']' :: s => some (name, ← restOfLine? s)
  | _ => none

/-- A key with its value, and what follows their line. -/
def readEntry? (s : List Char) : Option (String × Value × List Char) := do
  let (key, s) ← readKey? s
  match skipBlanks s with
  | '=' :: s =>
    let (v, s) ← readValue? maxDepth (s.length + 1) (skipBlanks s)
    some (key, v, ← restOfLine? s)
  | _ => none

/-- The document with the lines of a text. -/
def readLines? : Nat → Document → List Char → Option Document
  | 0, d, s => if s.isEmpty then some d else none
  | fuel + 1, d, s =>
    match skipLines s.length s with
    | [] => some d
    | '[' :: s => do
      let (name, s) ← readHeader? s
      readLines? fuel (← d.withTable? name) s
    | s => do
      let (key, v, s) ← readEntry? s
      readLines? fuel (← d.withEntry? key v) s

/-- A text without the mark of its byte order. -/
def withoutMark : List Char → List Char
  | '\ufeff' :: s => s
  | s => s

def ofText? (text : String) : Option Document :=
  let s := withoutMark text.toList
  readLines? (s.length + 1) empty s

end Document
end TransitPush.Toml
