/-!
# Binary numbers of 64 bits

The finite non-negative numbers of the 64-bit binary format are multiples of its least positive
number, `2 ^ -1074`.  Counting in this unit makes every operation an exact computation on natural
numbers, followed by one rounding.

## Main definitions

* `Binary64` — a finite non-negative number, as a count of units.
* `Binary64.nearest num den` — the number nearest to `num / den` units; none if that is beyond the
  greatest finite one.
* `Binary64.scaled? s e` — the number that the decimal significand `s` and the exponent `e` denote,
  computed by a multiplication or by divisions with powers of ten.
-/

namespace BundleAudit

/-- A quotient rounded to a natural number, a tie to the even neighbour. -/
def roundHalfEven (num den : Nat) : Nat :=
  let q := num / den
  let twice := 2 * (num % den)
  if twice < den then q else if den < twice then q + 1 else q + q % 2

/-- A finite non-negative number of the 64-bit binary format. -/
structure Binary64 where
  /-- The number in multiples of `2 ^ -1074`. -/
  units : Nat
deriving DecidableEq, Repr

namespace Binary64

/-- The number of units in one. -/
def one : Nat := Nat.pow 2 1074

/-- Zero. -/
def zero : Binary64 := ⟨0⟩

/-- The distance of a number from its upper neighbour, given the integral part of its count of
units: the mantissa has 53 bits. -/
def spacing (units : Nat) : Nat := Nat.pow 2 (units.log2 + 1 - 53)

/-- The number nearest to `num / den` units, a tie to the even mantissa.  There is none if the
result is not below `2 ^ 1024`. -/
def nearest (num den : Nat) : Option Binary64 :=
  -- rounding up may carry into the next power of two, which is again a multiple of the step
  let step := spacing (num / den)
  let units := roundHalfEven num (den * step) * step
  if units < Nat.pow 2 1024 * one then some ⟨units⟩ else none

/-- The number nearest to a natural number. -/
def ofNat? (n : Nat) : Option Binary64 := nearest (n * one) 1

/-- The rounded product. -/
def mul? (x y : Binary64) : Option Binary64 := nearest (x.units * y.units) one

/-- The rounded quotient. -/
def div? (x y : Binary64) : Option Binary64 := nearest (x.units * one) y.units

/-- The greatest exponent of a power of ten that is a finite number. -/
def maxPlaces : Nat := 308

/-- The number nearest to a power of ten. -/
def tenPow? (e : Nat) : Option Binary64 := ofNat? (Nat.pow 10 e)

/-- Multiplies by `10 ^ e`.  Beyond the greatest power of ten only zero has a product. -/
def shiftUp? (x : Binary64) (e : Nat) : Option Binary64 :=
  if e ≤ maxPlaces then (tenPow? e).bind x.mul?
  else if x = zero then some zero else none

/-- Divides by `10 ^ e`, by the greatest power of ten first, until the exponent is used up or
nothing is left. -/
def shiftDown? (x : Binary64) (e : Nat) : Option Binary64 :=
  if e ≤ maxPlaces then (tenPow? e).bind x.div?
  else if x = zero then some zero
  else ((tenPow? maxPlaces).bind x.div?).bind fun y => shiftDown? y (e - maxPlaces)
termination_by e
decreasing_by
  unfold maxPlaces at *
  omega

/-- The number that a decimal significand and exponent denote.  The significand is rounded first and
scaled then, so the result may differ from the nearest number in its last bit. -/
def scaled? (significand : Nat) (exponent : Int) : Option Binary64 :=
  match ofNat? significand, exponent with
  | some x, .ofNat e => x.shiftUp? e
  | some x, .negSucc e => x.shiftDown? (e + 1)
  | none, _ => none

end Binary64

end BundleAudit
