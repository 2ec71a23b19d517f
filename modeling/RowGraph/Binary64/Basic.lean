/-!
Double-precision numbers by their bit patterns.

A column of floating-point type is stored, compared and printed, but never computed with, so the
pattern itself is the value.  Two operations need its meaning: the order, which is the order of the
patterns read as signed magnitudes, and the number nearest to an integer.
-/

namespace RowGraph

/-- An IEEE 754 double, given by its 64 bits. -/
structure Binary64 where
  bits : UInt64
  deriving DecidableEq

namespace Binary64

/-! ## Fields of the pattern -/

/-- The place value of the sign bit: two to the 63. -/
def signPlace : Nat := 0x8000000000000000

/-- The place value of the lowest bit of the exponent: two to the 52. -/
def exponentPlace : Nat := 0x10000000000000

def magnitude (x : Binary64) : Nat :=
  x.bits.toNat % signPlace

def isNegative (x : Binary64) : Bool :=
  signPlace ≤ x.bits.toNat

def exponentField (x : Binary64) : Nat :=
  x.magnitude / exponentPlace

def fraction (x : Binary64) : Nat :=
  x.magnitude % exponentPlace

def isNaN (x : Binary64) : Bool :=
  2047 * exponentPlace < x.magnitude

def isInfinite (x : Binary64) : Bool :=
  x.magnitude = 2047 * exponentPlace

/-- The quiet pattern without payload, which stands for every number that is not one. -/
def nan : Binary64 := ⟨0x7ff8000000000000⟩

/-! ## Order -/

/-- The place of a pattern on the line of all doubles.  Neighbouring doubles have neighbouring
places and the two zeros share one. -/
def place (x : Binary64) : Int :=
  if x.isNegative then -(x.magnitude : Int) else x.magnitude

/-- The numerical order.  A pattern that is not a number compares with nothing, itself included. -/
def compare? (x y : Binary64) : Option Ordering :=
  if x.isNaN || y.isNaN then none else some (compare x.place y.place)

/-- Numerical equality: zeros of either sign are equal, and what is not a number equals nothing. -/
def equals (x y : Binary64) : Bool :=
  x.compare? y == some .eq

theorem compare?_swap (x y : Binary64) :
    y.compare? x = (x.compare? y).map Ordering.swap := by
  unfold compare?
  rw [Bool.or_comm]
  split
  · rfl
  · rw [Option.map_some, ← Int.compare_swap]

/-! ## The double nearest to an integer -/

/-- The quotient rounded to the nearest integer, a half going to the even neighbour. -/
def roundedQuotient (n d : Nat) : Nat :=
  let q := n / d
  let twice := 2 * (n % d)
  if twice < d then q else if d < twice then q + 1 else q + q % 2

/-- The pattern of the double nearest to a natural number.  The significand carries its leading bit
into the exponent field, so a significand that rounds up to the next power of two needs no case of
its own. -/
def patternOfNat (n : Nat) : Nat :=
  if n = 0 then 0
  else
    let top := n.log2
    let significand :=
      if top ≤ 52 then n * Nat.pow 2 (52 - top) else roundedQuotient n (Nat.pow 2 (top - 52))
    (top + 1022) * exponentPlace + significand

def ofInt (n : Int) : Binary64 :=
  let sign := if n < 0 then signPlace else 0
  ⟨UInt64.ofNat (sign + patternOfNat n.natAbs)⟩

end Binary64
end RowGraph
