import TransitPush.Text.Blank
import TransitPush.Time.Timestamp
/-!
# Timestamps as text

Written: `2024-05-01T12:00:00Z`, always in UTC. The fraction has no digits, or three, six or nine, the
fewest that are exact; a year beyond four digits has a sign; a leap second is second 60.

Read: date, then `T`, `t` or a blank, then time and offset. Blanks may stand between the parts and
numbers may have fewer digits; digits of the fraction beyond the ninth are cut off. A year of more
than four digits needs its sign. The offset is `Z`, `z`, `UTC`, or hours and minutes with a sign.
-/
namespace TransitPush.Timestamp

/-! ## Writing -/

/-- A number with zeros in front up to a width. -/
def padded (width n : Nat) : List Char :=
  let ds := Nat.toDigits 10 n
  List.replicate (width - ds.length) '0' ++ ds

/-- A year: four digits, or a sign and at least four. -/
def yearChars (year : Int) : List Char :=
  if 0 ≤ year ∧ year ≤ 9999 then padded 4 year.toNat
  else (if year < 0 then '-' else '+') :: padded 4 year.natAbs

def fractionChars (nano : Nat) : List Char :=
  if nano = 0 then []
  else if nano % 1000000 = 0 then '.' :: padded 3 (nano / 1000000)
  else if nano % 1000 = 0 then '.' :: padded 6 (nano / 1000)
  else '.' :: padded 9 nano

def chars (t : Timestamp) : List Char :=
  let (year, month, day) := Calendar.date (t.second.fdiv secondsPerDay)
  let time := t.timeOfDay.toNat
  let second := time % 60 + (if t.isLeap then 1 else 0)
  yearChars year ++ '-' :: padded 2 month ++ '-' :: padded 2 day ++ 'T' :: padded 2 (time / 3600) ++
    ':' :: padded 2 (time / 60 % 60) ++ ':' :: padded 2 second ++
    fractionChars (t.nano % nanosPerSecond) ++ ['Z']

def toText (t : Timestamp) : String :=
  String.ofList t.chars

/-! ## Reading -/

def isDecimal (c : Char) : Bool :=
  '0' ≤ c && c ≤ '9'

def digitsNumber (ds : List Char) : Nat :=
  ds.foldl (fun n c => 10 * n + (c.toNat - 48)) 0

/-- Digits at the front of a text, at most `width`, at least one, and what follows them. -/
def digits? (width : Nat) (s : List Char) : Option (List Char × List Char) :=
  match (s.take width).takeWhile isDecimal with
  | [] => none
  | ds => some (ds, s.drop ds.length)

/-- A number of at most `width` digits after blanks. -/
def number? (width : Nat) (s : List Char) : Option (Nat × List Char) :=
  (digits? width (s.dropWhile Text.isBlank)).map fun (ds, r) => (digitsNumber ds, r)

/-- A year: after a sign any number of digits, else at most four. -/
def year? (s : List Char) : Option (Int × List Char) :=
  match s.dropWhile Text.isBlank with
  | '-' :: r => (digits? r.length r).map fun (ds, r) => (-(digitsNumber ds : Int), r)
  | '+' :: r => (digits? r.length r).map fun (ds, r) => ((digitsNumber ds : Int), r)
  | r => (digits? 4 r).map fun (ds, r) => ((digitsNumber ds : Int), r)

/-- A punctuation mark after blanks. -/
def mark? (c : Char) (s : List Char) : Option (List Char) :=
  match s.dropWhile Text.isBlank with
  | d :: r => if d = c then some r else none
  | [] => none

/-- The nanoseconds of a fraction, if one stands there. -/
def fraction? (s : List Char) : Option (Nat × List Char) :=
  match s with
  | '.' :: r =>
    (digits? 9 r).map fun (ds, r) =>
      (digitsNumber ds * Nat.pow 10 (9 - ds.length), r.dropWhile isDecimal)
  | _ => some (0, s)

def twoDigits? : List Char → Option (Nat × List Char)
  | a :: b :: r =>
    if isDecimal a && isDecimal b then some (digitsNumber [a, b], r) else none
  | _ => none

/-- The seconds by which a local time is ahead of UTC. -/
def offset? (s : List Char) : Option (Int × List Char) :=
  let signed (sign : Int) (s : List Char) : Option (Int × List Char) := do
    let (hours, s) ← twoDigits? s
    let (minutes, s) ← twoDigits? (s.dropWhile fun c => c = ':' || Text.isBlank c)
    if minutes < 60 ∧ hours < 24 then some (sign * (hours * 3600 + minutes * 60), s) else none
  match s with
  | 'Z' :: r | 'z' :: r => some (0, r)
  | '+' :: r => signed 1 r
  | '-' :: r | '\u2212' :: r => signed (-1) r
  | u :: t :: c :: r => if [u, t, c].map Char.toUpper = ['U', 'T', 'C'] then some (0, r) else none
  | _ => none

def yearInRange (year : Int) : Bool :=
  -262143 ≤ year && year ≤ 262142

def ofChars? (s : List Char) : Option Timestamp := do
  let (year, s) ← year? s
  let s ← mark? '-' s
  let (month, s) ← number? 2 s
  let s ← mark? '-' s
  let (day, s) ← number? 2 s
  let s ← match s with
    | 'T' :: r | 't' :: r | ' ' :: r => some r
    | _ => none
  let (hour, s) ← number? 2 s
  let s ← mark? ':' s
  let (minute, s) ← number? 2 s
  let s ← mark? ':' s
  let (second, s) ← number? 2 s
  let (nano, s) ← fraction? s
  let (offset, s) ← offset? (s.dropWhile Text.isBlank)
  guard (s.all Text.isBlank)
  guard (yearInRange year ∧ Calendar.Exists year month day ∧ hour < 24 ∧ minute < 60 ∧ second ≤ 60)
  let (second, nano) := if second = 60 then (59, nano + nanosPerSecond) else (second, nano)
  let days := Calendar.dayNumber year month day
  ofParts? (days * secondsPerDay + (hour * 3600 + minute * 60 + second : Nat) - offset) nano

def ofText? (s : String) : Option Timestamp :=
  ofChars? s.toList

end TransitPush.Timestamp
