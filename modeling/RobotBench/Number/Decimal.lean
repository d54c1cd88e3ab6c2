import RobotBench.Number.Basic

/-!
# Decimals and the numbers nearest to them

A decimal is a natural coefficient with a power of ten. `Decimal.round` is the count of
units nearest to it, and `Decimal.toNumber` is the number read from a sign and a decimal.
Powers of ten far outside the range of finite numbers are settled without computing them.
-/

namespace RobotBench

/-- The value `coefficient * 10 ^ exponent`. -/
structure Decimal where
  coefficient : Nat
  exponent : Int
  deriving DecidableEq

namespace Decimal

/-- The numerator of the value in least units. -/
def unitsNum (d : Decimal) : Nat :=
  d.coefficient * Nat.pow 10 d.exponent.toNat * Number.unitsPerOne

/-- The denominator of the value in least units. -/
def unitsDen (d : Decimal) : Nat := Nat.pow 10 (-d.exponent).toNat

/-- The count of units nearest to the decimal. -/
def round (d : Decimal) : Nat := Number.roundRatio d.unitsNum d.unitsDen

/-- The decimal lies above every finite number, as its power of ten alone shows. -/
def isHuge (d : Decimal) : Bool := d.coefficient ≠ 0 ∧ 400 < d.exponent

/-- The decimal lies below half a unit, as its power of ten and the length of its
coefficient show. -/
def isTiny (d : Decimal) : Bool :=
  d.coefficient = 0 ∨ (d.coefficient.log2 + 401 : Nat) < -d.exponent

/-- The number nearest to the decimal, with the given sign. -/
def toNumber (negative : Bool) (d : Decimal) : Number :=
  if d.isHuge then .infinite negative
  else if d.isTiny then .zero negative
  else .ofUnits negative d.unitsNum d.unitsDen

end Decimal

end RobotBench
