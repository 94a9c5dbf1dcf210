import Stencil.Decimal.Shortest
import Stencil.Text.Basic

/-!
# Decimal notation

How the digits of a number are laid out: with a point among them while the exponent of the first
digit is moderate, and with an exponent otherwise.
-/

namespace Stencil.Decimal

/-- Digits of a number without the zeros at their end, which move into the exponent. -/
def Scientific.significant (d : Scientific) : Text × Int :=
  let digits := Nat.toDigits 10 d.digits
  let kept := (digits.reverse.dropWhile (· == '0')).reverse
  (kept, d.exponent + (digits.length - kept.length : Nat))

/-- The decisions of a layout. -/
structure Layout where
  /-- The least exponent of a first digit that is written with a point. -/
  least : Int
  /-- The first exponent of a first digit that is too large for a point. -/
  beyond : Int
  /-- How many digits an exponent has at least. -/
  exponentDigits : Nat
  notANumber : Text
  infinity : Text
  negativeInfinity : Text

/-- Digits with a point: a whole number keeps one zero behind it. -/
def pointed (digits : Text) (exponent : Int) : Text :=
  if 0 ≤ exponent then digits ++ List.replicate exponent.toNat '0' ++ ['.', '0']
  else
    let places := (-exponent).toNat
    if places < digits.length then
      digits.take (digits.length - places) ++ ['.'] ++ digits.drop (digits.length - places)
    else ['0', '.'] ++ List.replicate (places - digits.length) '0' ++ digits

/-- Digits with an exponent, one digit before the point. -/
def withExponent (layout : Layout) (digits : Text) (order : Int) : Text :=
  let mantissa :=
    match digits with
    | first :: second :: more => first :: '.' :: second :: more
    | short => short
  let sign := if order < 0 then '-' else '+'
  mantissa ++ ['e', sign] ++ (Nat.toDigits 10 order.natAbs).leftpad layout.exponentDigits '0'

/-- The fewest digits that identify a magnitude, laid out. -/
def Layout.magnitude (layout : Layout) (x : Magnitude) : Text :=
  if x.significand == 0 then ['0', '.', '0']
  else
    let (digits, exponent) := x.shortest.significant
    let order := exponent + digits.length - 1
    if layout.least ≤ order && order < layout.beyond then pointed digits exponent
    else withExponent layout digits order

/-- A floating-point number, laid out. -/
def Layout.float (layout : Layout) (x : Float) : Text :=
  match Reading.ofFloat x with
  | .notANumber => layout.notANumber
  | .infinite negative => if negative then layout.negativeInfinity else layout.infinity
  | .finite negative magnitude =>
    (if negative then ['-'] else []) ++ layout.magnitude magnitude

end Stencil.Decimal
