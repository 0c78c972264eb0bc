import BundleAudit.Decimal.Binary64

/-!
# Shortest decimal texts

A binary number is written with the fewest decimal digits that still tell it from its neighbours; of
two such decimals the nearer one is taken, and of two equally near ones the one whose last digit is
even.  A style says which decimals are written positionally, always with a point; the others have an
exponent.

## Main definitions

* `Binary64.lowerEnd`, `Binary64.upperEnd` — the ends of the interval that rounds to a number.
* `Binary64.shortest x` — the digits and the exponent of the decimal chosen.
* `DecimalStyle` — which decimals are written positionally.
* `Binary64.text style x` — the text.
-/

namespace BundleAudit.Binary64

/-- Decimals are compared in multiples of `10 ^ -400`, which divides every decimal that is tried. -/
def places : Nat := 400

/-! ### The interval that rounds to a number

Its ends are the midpoints between neighbours.  In quarters of a unit they are natural numbers. -/

/-- The midpoint to the upper neighbour, in quarters of a unit. -/
def upperEnd (x : Binary64) : Nat := 4 * x.units + 2 * spacing x.units

/-- The midpoint to the lower neighbour, in quarters of a unit.  Below a power of two the neighbours
are twice as close. -/
def lowerEnd (x : Binary64) : Nat :=
  let step := spacing x.units
  if 1 < step ∧ x.units = Nat.pow 2 52 * step then 4 * x.units - step else 4 * x.units - 2 * step

/-- Whether the decimal `digits * 10 ^ (e - places)` rounds to `x`.  The ends of the interval do
exactly if the mantissa is even. -/
def reads (x : Binary64) (digits e : Nat) : Bool :=
  let decimal := digits * Nat.pow 10 e * 4 * one
  let low := x.lowerEnd * Nat.pow 10 places
  let high := x.upperEnd * Nat.pow 10 places
  if x.units / spacing x.units % 2 = 0 then low ≤ decimal && decimal ≤ high
  else low < decimal && decimal < high

/-! ### The decimal chosen -/

/-- The integral part of `x` in multiples of `10 ^ -places`. -/
def scaledDown (x : Binary64) : Nat := x.units * Nat.pow 10 places / one

/-- Of the two neighbours of `x` among the multiples of `10 ^ (e - places)`, the one that reads
back: the nearer one if both do, the even one if they are equally near. -/
def onGrid? (x : Binary64) (e : Nat) : Option (Nat × Nat) :=
  let exact := x.units * Nat.pow 10 places
  let step := Nat.pow 10 e * one
  let low := exact / step
  let twice := 2 * (exact % step)
  let lowNearer := twice < step || (twice = step && low % 2 = 0)
  match x.reads low e, x.reads (low + 1) e with
  | true, true => some (if lowNearer then low else low + 1, e)
  | true, false => some (low, e)
  | false, true => some (low + 1, e)
  | false, false => none

/-- The decimal with the fewest digits that reads back, as digits and an exponent counted from
`10 ^ -places`.  Seventeen digits are always enough. -/
def shortest (x : Binary64) : Nat × Nat :=
  let length := (Nat.toDigits 10 x.scaledDown).length
  ((List.range 17).findSome? fun n => x.onGrid? (length - (n + 1))).getD (x.scaledDown, 0)

/-! ### The text -/

/-- Which decimals are written positionally, by the exponent of their first digit. -/
structure DecimalStyle where
  /-- The least such exponent. -/
  least : Int
  /-- The greatest such exponent. -/
  greatest : Int
deriving DecidableEq, Repr

/-- A text without the zeros at its end. -/
def withoutZeros (digits : List Char) : List Char :=
  (digits.reverse.dropWhile (· = '0')).reverse

/-- The digits of the decimal chosen, without zeros at the end, and the exponent of the first one.
-/
def digits (x : Binary64) : List Char × Int :=
  let (significand, e) := x.shortest
  let shown := Nat.toDigits 10 significand
  (withoutZeros shown, (e : Int) - places + shown.length - 1)

/-- Digits with a point, at least one digit on each side of it. -/
def positional (digits : List Char) (first : Int) : List Char :=
  match first with
  | .ofNat n =>
    let whole := digits.take (n + 1)
    let rest := digits.drop (n + 1)
    whole ++ List.replicate (n + 1 - whole.length) '0' ++
      '.' :: (if rest = [] then ['0'] else rest)
  | .negSucc n => '0' :: '.' :: (List.replicate n '0' ++ digits)

/-- Digits with an exponent, which always has a sign.  A point follows the first digit unless that
is the only one. -/
def scientific (digits : List Char) (first : Int) : List Char :=
  digits.take 1 ++ (if digits.length ≤ 1 then [] else '.' :: digits.drop 1) ++
    'e' :: (if first < 0 then '-' else '+') :: Nat.toDigits 10 first.natAbs

/-- The text of a number. -/
def text (style : DecimalStyle) (x : Binary64) : List Char :=
  if x = zero then positional ['0'] 0
  else
    let (digits, first) := x.digits
    if style.least ≤ first ∧ first ≤ style.greatest then positional digits first
    else scientific digits first

end BundleAudit.Binary64
