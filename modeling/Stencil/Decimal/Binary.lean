/-!
# Binary numbers

A floating-point number is not a number, infinite, or a sign and a magnitude `m * 2 ^ q`. The reals
that round to a magnitude fill an interval around it, whose ends belong to it exactly when `m` is
even.
-/

namespace Stencil.Decimal

/-- A positive magnitude or zero, `significand * 2 ^ exponent`. -/
structure Magnitude where
  significand : Nat
  exponent : Int
  /-- The gap to the magnitude below is half the gap to the one above. -/
  narrowBelow : Bool
deriving DecidableEq, Repr

/-- What the bits of a floating-point number stand for. -/
inductive Reading
  | notANumber
  | infinite (negative : Bool)
  | finite (negative : Bool) (magnitude : Magnitude)
deriving DecidableEq, Repr

/-- Reads the bits of a double: one of sign, eleven of exponent, fifty-two of significand. -/
def Reading.ofBits (bits : UInt64) : Reading :=
  let negative := bits >>> 63 == 1
  let exponent := ((bits >>> 52) &&& 0x7ff).toNat
  let fraction := (bits &&& 0xfffffffffffff).toNat
  if exponent == 0x7ff then
    if fraction == 0 then .infinite negative else .notANumber
  else if exponent == 0 then
    .finite negative ⟨fraction, -1074, false⟩
  else
    .finite negative ⟨0x10000000000000 + fraction, (exponent : Int) - 1075, fraction == 0 && exponent != 1⟩

/-- Reads a floating-point number. -/
def Reading.ofFloat (x : Float) : Reading := .ofBits x.toBits

/-- The whole number that a magnitude equals, if it equals one. -/
def Magnitude.natural? (x : Magnitude) : Option Nat :=
  if 0 ≤ x.exponent then some (x.significand <<< x.exponent.toNat)
  else
    let unit := 1 <<< (-x.exponent).toNat
    if x.significand % unit == 0 then some (x.significand / unit) else none

/-- The whole number that a floating-point number equals, if it equals one. -/
def integer? (x : Float) : Option Int :=
  match Reading.ofFloat x with
  | .finite negative magnitude =>
    magnitude.natural?.map fun n => if negative then -(n : Int) else n
  | _ => none

end Stencil.Decimal
