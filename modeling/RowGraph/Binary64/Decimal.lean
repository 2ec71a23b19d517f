import RowGraph.Binary64.Basic

/-!
The decimal text of a double: the fewest digits that read back as the same double, and of those the
nearest to it.

The search is over decimal grids.  The reals that round to a double form an interval around it; the
coarsest grid of multiples of a power of ten that has a point in the interval gives the fewest
digits, and one of the two grid points next to the double is such a point.  All comparisons are
between natural numbers, after scaling by the powers of two and ten that occur.
-/

namespace RowGraph
namespace Binary64

/-! ## Shortest digits -/

/-- The interval of reals that round to a double, in units of a quarter of its last place: the
double itself, the two ends, whether the ends belong to it, and the binary exponent of the unit. -/
structure Rounding where
  value : Nat
  low : Nat
  high : Nat
  closed : Bool
  exponent : Int

/-- The rounding interval of a finite double other than zero.  Below a power of two the doubles are
twice as dense, so the lower end is half as far. -/
def rounding (x : Binary64) : Rounding :=
  let m := if x.exponentField = 0 then x.fraction else x.fraction + exponentPlace
  let e : Int := max x.exponentField 1 - 1077
  let near := if x.fraction = 0 && 1 < x.exponentField then 1 else 2
  ⟨4 * m, 4 * m - near, 4 * m + 2, m % 2 == 0, e⟩

/-- A decimal number: `digits` times ten to the `exponent`. -/
structure Decimal where
  digits : Nat
  exponent : Int

/-- The point of the grid of multiples of ten to the `p` that lies in the interval and is nearest to
its value, if there is one.  Of two equally near the larger is taken. -/
def Rounding.gridPoint? (r : Rounding) (p : Int) : Option Decimal :=
  let unit := Nat.pow 2 r.exponent.toNat * Nat.pow 10 (-p).toNat
  let grid := Nat.pow 2 (-r.exponent).toNat * Nat.pow 10 p.toNat
  let inside (d : Nat) : Bool :=
    if r.closed then r.low * unit ≤ d * grid && d * grid ≤ r.high * unit
    else r.low * unit < d * grid && d * grid < r.high * unit
  let d := r.value * unit / grid
  let lower := inside d
  let upper := inside (d + 1)
  if upper && (!lower || (2 * d + 1) * grid ≤ 2 * (r.value * unit)) then some ⟨d + 1, p⟩
  else if lower then some ⟨d, p⟩
  else none

/-- The exponents of the decimal grids, from the coarsest that a double can lie on downwards. -/
def gridExponents : List Int :=
  (List.range 640).map fun (i : Nat) => 309 - (i : Int)

/-- The shortest decimal that rounds to the double. -/
def shortest (x : Binary64) : Decimal :=
  (gridExponents.findSome? x.rounding.gridPoint?).getD ⟨0, 0⟩

def significantDigits (n : Nat) : List Char :=
  ((Nat.toDigits 10 n).reverse.dropWhile (· == '0')).reverse

/-! ## Layout -/

structure Layout where
  /-- Keep a zero after the point of a whole number. -/
  point : Bool
  /-- Decimal exponents that are written out in places; others take an exponent. -/
  positional : Int → Bool

/-- In statements: every number is written out in places, a whole number without a point. -/
def Layout.statement : Layout := ⟨false, fun _ => true⟩

/-- In messages: a number below 10⁻⁴ or from 10¹⁶ on takes an exponent, and the others show that
they are not integers. -/
def Layout.message : Layout := ⟨true, fun e => -4 ≤ e && e < 16⟩

/-- Digits written out in places, `e` being the decimal exponent of the first. -/
def positionalText (point : Bool) (digits : List Char) (e : Int) : String :=
  let whole := (e + 1).toNat
  let zeros := List.replicate (-(e + 1)).toNat '0'
  let before := digits.take whole ++ List.replicate (whole - digits.length) '0'
  let after := zeros ++ digits.drop whole
  let head := if before.isEmpty then ['0'] else before
  let tail := if after.isEmpty then (if point then ['.', '0'] else []) else '.' :: after
  String.ofList (head ++ tail)

def exponentText (digits : List Char) (e : Int) : String :=
  let tail := if digits.length ≤ 1 then [] else '.' :: digits.drop 1
  String.ofList (digits.take 1 ++ tail) ++ "e" ++ toString e

def magnitudeText (layout : Layout) (x : Binary64) : String :=
  if x.magnitude = 0 then positionalText layout.point ['0'] 0
  else
    let decimal := x.shortest
    let all := Nat.toDigits 10 decimal.digits
    let e := decimal.exponent + all.length - 1
    let digits := significantDigits decimal.digits
    if layout.positional e then positionalText layout.point digits e else exponentText digits e

def text (layout : Layout) (x : Binary64) : String :=
  if x.isNaN then "NaN"
  else
    let body := if x.isInfinite then "inf" else magnitudeText layout x
    if x.isNegative then "-" ++ body else body

end Binary64
end RowGraph
