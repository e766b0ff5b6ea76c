import SheetLint.Number.Binary64

/-!
The shortest decimal text of a floating-point number: of all decimal numbers that round to it, one
with the fewest digits, and of those the nearest. `positional` writes it without an exponent, and
`scientific` writes very great and very small numbers with one.
-/

namespace SheetLint.Binary64

/-- The decimal number `digits · 10 ^ exponent`. -/
structure Decimal where
  digits : Nat
  exponent : Int
deriving DecidableEq, Repr

/-- The positive numbers that round to a mantissa and an exponent lie between two bounds, which
belong to them iff the mantissa is even. The bounds and the number itself are fractions with one
denominator. -/
structure Interval where
  low : Nat
  value : Nat
  high : Nat
  den : Nat
  closed : Bool

/-- The interval of the numbers that round to `x`. Below a power of two the neighbour is only half
as far away as above it. -/
def interval (x : Binary64) : Interval :=
  let below := if x.mantissa = Nat.pow 2 52 ∧ minExponent < x.exponent then 1 else 2
  let unit := if x.exponent < 2 then 1 else Nat.pow 2 (x.exponent - 2).toNat
  let den := if x.exponent < 2 then Nat.pow 2 (2 - x.exponent).toNat else 1
  { low := (4 * x.mantissa - below) * unit
    value := 4 * x.mantissa * unit
    high := (4 * x.mantissa + 2) * unit
    den
    closed := x.mantissa % 2 = 0 }

def Interval.contains (i : Interval) (n : Nat) : Bool :=
  if i.closed then i.low ≤ n && n ≤ i.high else i.low < n && n < i.high

/-- The fractions of the interval and the unit of the grid of multiples of a power of ten, all over
one denominator. -/
def Interval.onGrid (i : Interval) (exponent : Int) : Interval × Nat :=
  if exponent < 0 then
    let s := Nat.pow 10 (-exponent).toNat
    ({ i with low := i.low * s, value := i.value * s, high := i.high * s }, i.den)
  else (i, i.den * Nat.pow 10 exponent.toNat)

/-- The multiple of a power of ten that lies in the interval and is nearest to its value; of two
equally near ones the even one. -/
def Interval.nearest? (i : Interval) (exponent : Int) : Option Nat :=
  let (i, unit) := i.onGrid exponent
  let below := i.value / unit
  let above := below + 1
  let toBelow := i.value - below * unit
  let toAbove := above * unit - i.value
  match i.contains (below * unit), i.contains (above * unit) with
  | true, true =>
    if toBelow < toAbove then some below
    else if toAbove < toBelow then some above
    else some (below + below % 2)
  | true, false => some below
  | false, true => some above
  | false, false => none

/-- Looks for a decimal number in the interval on ever finer grids. -/
def Interval.search (i : Interval) : Nat → Int → Decimal
  | 0, exponent => ⟨i.value, exponent⟩
  | fuel + 1, exponent =>
    match i.nearest? exponent with
    | some digits => ⟨digits, exponent⟩
    | none => i.search fuel (exponent - 1)

/-- The shortest decimal number that rounds to the positive number `x`. The first grid is coarser
than the number, and a grid with seventeen digits always has a hit. -/
def shortest (x : Binary64) : Decimal :=
  let magnitude : Int := Nat.log2 x.mantissa + x.exponent
  x.interval.search 24 (magnitude * 30103 / 100000 + 3)

def signText (negative : Bool) : List Char :=
  if negative then ['-'] else []

def digitsText (n : Nat) : List Char :=
  Nat.toDigits 10 n

/-- The text of a decimal number without an exponent, and with a fraction even if it is zero. -/
def Decimal.positional (d : Decimal) : List Char :=
  let ds := digitsText d.digits
  let point := ds.length + d.exponent
  if 0 ≤ d.exponent then ds ++ List.replicate d.exponent.toNat '0' ++ ['.', '0']
  else if 0 < point then ds.take point.toNat ++ '.' :: ds.drop point.toNat
  else '0' :: '.' :: List.replicate (-point).toNat '0' ++ ds

/-- The text of a decimal number with one digit before the point and a signed exponent. -/
def Decimal.scientific (d : Decimal) : List Char :=
  let ds := digitsText d.digits
  let exponent := ds.length + d.exponent - 1
  let fraction := match ds.drop 1 with
    | [] => []
    | more => '.' :: more
  ds.take 1 ++ fraction ++ 'e' :: (if exponent < 0 then '-' else '+') :: digitsText exponent.natAbs

/-- The shortest text of a number; from 10 ^ 16 on, and below 10 ^ -5, with an exponent. -/
def text (x : Binary64) : List Char :=
  signText x.negative ++
    if x.mantissa = 0 then ['0', '.', '0']
    else
      let d := x.shortest
      let point := (digitsText d.digits).length + d.exponent
      if -5 < point ∧ point ≤ 16 then d.positional else d.scientific

end SheetLint.Binary64
