import Stencil.Decimal.Binary

/-!
# Shortest decimals

The fewest decimal digits that identify a magnitude: of the decimals that round to it, those with
the fewest digits, and of these the nearest. For one digit, two digits and so on the two neighbours
of the magnitude on the decimal grid with that many digits are tried; if any point of a grid rounds
to the magnitude then one of its two neighbours does.
-/

namespace Stencil.Decimal

/-- The number `digits * 10 ^ exponent`. -/
structure Scientific where
  digits : Nat
  exponent : Int
deriving DecidableEq, Repr

/-- A non-negative fraction; the denominator is not zero in what follows. -/
structure Ratio where
  numerator : Nat
  denominator : Nat

/-- The fraction `n * base ^ exponent`. -/
def Ratio.scaled (n base : Nat) (exponent : Int) : Ratio :=
  if 0 ≤ exponent then ⟨n * base.pow exponent.toNat, 1⟩ else ⟨n, base.pow (-exponent).toNat⟩

/-- Whether one fraction is less than another. -/
def Ratio.lt (a b : Ratio) : Bool := a.numerator * b.denominator < b.numerator * a.denominator

/-- The fraction that a decimal stands for. -/
def Scientific.ratio (d : Scientific) : Ratio := .scaled d.digits 10 d.exponent

/-- Four quarters of the unit of a magnitude, in units of its exponent less two. -/
def Magnitude.quarters (x : Magnitude) (n : Nat) : Ratio := .scaled n 2 (x.exponent - 2)

/-- The lower end of the interval that rounds to a magnitude. -/
def Magnitude.lower (x : Magnitude) : Ratio :=
  x.quarters (4 * x.significand - if x.narrowBelow then 1 else 2)

/-- The upper end of the interval that rounds to a magnitude. -/
def Magnitude.upper (x : Magnitude) : Ratio := x.quarters (4 * x.significand + 2)

/-- Whether a decimal rounds to a magnitude. -/
def Magnitude.roundsFrom (x : Magnitude) (d : Scientific) : Bool :=
  if x.significand % 2 == 0 then !d.ratio.lt x.lower && !x.upper.lt d.ratio
  else x.lower.lt d.ratio && d.ratio.lt x.upper

/-- The neighbour of a magnitude on the grid of step `10 ^ exponent` that rounds to it, the nearer
one if both do, the one with an even digit if they are equally near. -/
def Magnitude.onGrid? (x : Magnitude) (exponent : Int) : Option Scientific :=
  let value := x.quarters (4 * x.significand)
  let grid := Ratio.scaled 1 10 exponent
  let low := value.numerator * grid.denominator / (value.denominator * grid.numerator)
  let below : Scientific := ⟨low, exponent⟩
  let above : Scientific := ⟨low + 1, exponent⟩
  let middle := Ratio.scaled (2 * low + 1) 10 exponent
  let twice : Ratio := ⟨2 * value.numerator, value.denominator⟩
  let belowFirst := twice.lt middle || (!middle.lt twice && low % 2 == 0)
  match x.roundsFrom below, x.roundsFrom above with
  | true, true => some (if belowFirst then below else above)
  | true, false => some below
  | false, true => some above
  | false, false => none

/-- The exponent of the first digit of a positive magnitude. -/
def Magnitude.order (x : Magnitude) : Int :=
  let value := x.quarters (4 * x.significand)
  if value.denominator ≤ value.numerator then
    (Nat.toDigits 10 (value.numerator / value.denominator)).length - 1
  else
    -((Nat.toDigits 10 (value.denominator / value.numerator)).length : Int)

/-- The first hit on the grids of step `10 ^ exponent`, `10 ^ (exponent - 1)` and so on, `tries` of
them; the magnitude cut on the last grid if none has a hit. -/
def Magnitude.search (x : Magnitude) : Nat → Int → Scientific
  | 0, exponent =>
    let value := x.quarters (4 * x.significand)
    let grid := Ratio.scaled 1 10 exponent
    ⟨value.numerator * grid.denominator / (value.denominator * grid.numerator), exponent⟩
  | tries + 1, exponent => (x.onGrid? exponent).getD (x.search tries (exponent - 1))

/-- The fewest digits that identify a positive magnitude; seventeen always do. -/
def Magnitude.shortest (x : Magnitude) : Scientific := x.search 17 x.order

end Stencil.Decimal
