/-!
# Double-precision numbers

A finite double is a sign, a mantissa `m` and an exponent `q`, and stands for `± m · 2 ^ q`.
Everything here is exact arithmetic on natural numbers.

* `Double.nearest?` rounds a quotient to the nearest double, a tie to the even mantissa, and is
  `none` where the quotient is too large for any double.
* `Double.ofDecimal?` reads a decimal significand and a power of ten in two roundings: first the
  significand, then its product with (or quotient by) the rounded power of ten.
* `Double.shortest` is the point of the coarsest decimal grid that lies in the interval of the
  reals that round to the number; `Double.chars` writes its digits.
-/
namespace TransitPush

/-- The least mantissa of 53 bits, `2 ^ 52`. -/
abbrev topBit : Nat := 4503599627370496

/-- A finite double `± mantissa · 2 ^ exponent`. The mantissa has 53 bits, fewer only at the least
exponent, so each magnitude has one representation. -/
structure Double where
  negative : Bool
  mantissa : Nat
  exponent : Int
  canonical : mantissa < 2 * topBit ∧ -1074 ≤ exponent ∧ exponent ≤ 971 ∧
    (topBit ≤ mantissa ∨ exponent = -1074)
deriving DecidableEq

namespace Double

def zero (negative : Bool) : Double :=
  ⟨negative, 0, -1074, by decide⟩

def isZero (d : Double) : Bool :=
  d.mantissa == 0

def withSign (d : Double) (negative : Bool) : Double :=
  { d with negative }

/-- The quotient rounded to the nearest whole number, a half to the even neighbour. -/
def roundDiv (num den : Nat) : Nat :=
  let below := num / den
  let rest := 2 * (num % den)
  if rest < den then below
  else if den < rest then below + 1
  else if below % 2 = 0 then below else below + 1

/-- The fraction `num / den · 2 ^ q` as numerator and denominator. -/
def scaled (num den : Nat) (q : Int) : Nat × Nat :=
  if 0 ≤ q then (num <<< q.toNat, den) else (num, den <<< (-q).toNat)

/-- The greatest `e` with `2 ^ e ≤ num / den`, for positive numbers. -/
def binaryExponent (num den : Nat) : Int :=
  let e : Int := (num.log2 : Int) - den.log2
  let (n, d) := scaled num den (-e)
  if d ≤ n then e else e - 1

/-- The non-negative double nearest to `num / den`, a tie to the even mantissa. `none` if the
quotient rounds past the greatest double. -/
def nearest? (num den : Nat) : Option Double :=
  if num = 0 then some (zero false)
  else
    let q := max (binaryExponent num den - 52) (-1074)
    let (n, d) := scaled num den (-q)
    let m := roundDiv n d
    let (m, q) := if m = 2 * topBit then (topBit, q + 1) else (m, q)
    if h : m < 2 * topBit ∧ -1074 ≤ q ∧ q ≤ 971 ∧ (topBit ≤ m ∨ q = -1074) then
      some ⟨false, m, q, h⟩
    else none

def mul? (a b : Double) : Option Double :=
  let (n, d) := scaled (a.mantissa * b.mantissa) 1 (a.exponent + b.exponent)
  nearest? n d

def div? (a b : Double) : Option Double :=
  let (n, d) := scaled a.mantissa b.mantissa (a.exponent - b.exponent)
  nearest? n d

def powerOfTen (n : Nat) : Nat :=
  Nat.pow 10 n

/-- The greatest power of ten that is a finite double. -/
def greatestPower : Nat := 308

/-- The non-negative double read from `significand · 10 ^ exponent`. Significand and power of ten
are rounded on their own, and their product or quotient once more, so a long significand may land
one place off the nearest double. `none` if the result is too large. -/
def ofDecimal? (significand : Nat) (exponent : Int) : Option Double := do
  let f ← nearest? significand 1
  if f.isZero then
    some f
  else if 0 ≤ exponent then
    if exponent ≤ greatestPower then mul? f (← nearest? (powerOfTen exponent.toNat) 1) else none
  else
    let k := (-exponent).toNat
    if k ≤ greatestPower then
      div? f (← nearest? (powerOfTen k) 1)
    else if k ≤ 2 * greatestPower then
      let f ← div? f (← nearest? (powerOfTen greatestPower) 1)
      div? f (← nearest? (powerOfTen (k - greatestPower)) 1)
    else
      some (zero false)

/-! ## Shortest decimal text -/

/-- Four times the ends of the interval of reals that round to `m · 2 ^ q`, in units of
`2 ^ (q - 2)`. Below a power of two the neighbours lie half as far apart. -/
def interval (m : Nat) (q : Int) : Nat × Nat :=
  (if m = topBit ∧ q ≠ -1074 then 4 * m - 1 else 4 * m - 2, 4 * m + 2)

/-- The point of the grid `10 ^ k` that rounds to `m · 2 ^ q`, if there is one: of two the nearer,
of two equally near the even one. The ends of the interval count when the mantissa is even. -/
def gridPoint? (m : Nat) (q k : Int) : Option Nat :=
  let a := powerOfTen k.toNat <<< (2 - q).toNat
  let b := powerOfTen (-k).toNat <<< (q - 2).toNat
  let (lo, hi) := interval m q
  let inside (c : Nat) : Bool :=
    if m % 2 = 0 then lo * b ≤ c * a && c * a ≤ hi * b else lo * b < c * a && c * a < hi * b
  let v := 4 * m * b
  let c := v / a
  match inside c, inside (c + 1) with
  | true, true =>
    let below := v - c * a
    let above := (c + 1) * a - v
    if below < above || (below = above && c % 2 = 0) then some c else some (c + 1)
  | true, false => some c
  | false, true => some (c + 1)
  | false, false => none

/-- The first grid point met on the grids `10 ^ k`, `10 ^ (k - 1)`, … -/
def search (m : Nat) (q : Int) : Nat → Int → Nat × Int
  | 0, k => (0, k)
  | fuel + 1, k =>
    match gridPoint? m q k with
    | some c => (c, k)
    | none => search m q fuel (k - 1)

/-- The shortest decimal `c · 10 ^ k` that reads back as a positive magnitude. The coarsest grid
tried lies above the number; seventeen digits always suffice. -/
def shortest (d : Double) : Nat × Int :=
  let top := ((d.mantissa.log2 + d.exponent + 1) * 30103).fdiv 100000 + 2
  search d.mantissa d.exponent 24 top

/-- How a double is written: positional from `10 ^ least` up to `10 ^ most`, else with an exponent
that carries its sign; a whole number keeps one decimal. -/
structure Style where
  least : Int
  most : Int

/-- Numbers from `10 ^ -5` up to `10 ^ 16` are written without an exponent. -/
def style : Style := ⟨-5, 16⟩

/-- The text of a magnitude with digits `ds` and decimal exponent `k`. -/
def layout (s : Style) (ds : List Char) (k : Int) : List Char :=
  let point := ds.length + k
  let e := point - 1
  if s.least ≤ e ∧ e < s.most then
    if 0 ≤ k then ds ++ List.replicate k.toNat '0' ++ ['.', '0']
    else if 0 < point then ds.take point.toNat ++ '.' :: ds.drop point.toNat
    else '0' :: '.' :: (List.replicate (-point).toNat '0' ++ ds)
  else
    let mantissa := match ds with
      | [d] => [d]
      | d :: rest => d :: '.' :: rest
      | [] => []
    mantissa ++ 'e' :: (if e < 0 then '-' else '+') :: Nat.toDigits 10 e.natAbs

/-- The text of a double: the fewest digits that read back. -/
def chars (d : Double) : List Char :=
  let sign := if d.negative then ['-'] else []
  if d.isZero then sign ++ ['0', '.', '0']
  else
    let (c, k) := d.shortest
    sign ++ layout style (Nat.toDigits 10 c) k

end Double
end TransitPush
