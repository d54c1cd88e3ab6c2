import RobotBench.Number.Shortest

/-!
# The text of a number

Two layouts of the shortest digits. `Number.plain` is what scripts see: positional always,
no point on whole numbers, `-0` for the negative zero, and `NaN`, `inf`, `-inf`.
`Number.json` is the layout of JSON documents: a point in every positional number, a power
of ten outside the range from `10 ^ (-5)` to `10 ^ 16`, and `null` for what is not finite.
-/

namespace RobotBench

namespace Decimal

/-- The digits of the coefficient. -/
def digits (d : Decimal) : List Char := Nat.toDigits 10 d.coefficient

/-- The digits before the point and those after it, in positional writing. -/
def positional (d : Decimal) : List Char × List Char :=
  let written := d.digits
  if 0 ≤ d.exponent then (written ++ List.replicate d.exponent.toNat '0', [])
  else
    let places := (-d.exponent).toNat
    if written.length ≤ places then
      (['0'], List.replicate (places - written.length) '0' ++ written)
    else written.splitAt (written.length - places)

/-- Positional writing; whole numbers have no point. -/
def plain (d : Decimal) : List Char :=
  match d.positional with
  | (whole, []) => whole
  | (whole, part) => whole ++ '.' :: part

/-- Positional writing with at least one digit after the point. -/
def pointed (d : Decimal) : List Char :=
  match d.positional with
  | (whole, []) => whole ++ ['.', '0']
  | (whole, part) => whole ++ '.' :: part

/-- The power of ten of the first digit. -/
def magnitude (d : Decimal) : Int := d.exponent + d.digits.length - 1

/-- One digit before the point and a signed power of ten. -/
def scientific (d : Decimal) : List Char :=
  let mantissa := match d.digits with
    | [] => []
    | [c] => [c]
    | c :: rest => c :: '.' :: rest
  let sign := if d.magnitude < 0 then '-' else '+'
  mantissa ++ 'e' :: sign :: Nat.toDigits 10 d.magnitude.natAbs

/-- Positional for magnitudes from -5 to 15, and scientific outside. -/
def json (d : Decimal) : List Char :=
  if -5 ≤ d.magnitude ∧ d.magnitude ≤ 15 then d.pointed else d.scientific

end Decimal

namespace Number

/-- The text of a finite number: its sign and the layout of its shortest digits. -/
def written (tie : Decimal.Tie) (layout : Decimal → List Char) (negative : Bool)
    (m : Magnitude) : String :=
  let text := layout (if m.units = 0 then ⟨0, 0⟩ else Decimal.shortest tie m.units)
  String.ofList (if negative then '-' :: text else text)

/-- The text of a number in scripts and messages. -/
def plain : Number → String
  | .nan => "NaN"
  | .infinite negative => if negative then "-inf" else "inf"
  | .finite negative m => written .up Decimal.plain negative m

/-- The text of a number in a JSON document. -/
def json : Number → String
  | .finite negative m => written .even Decimal.json negative m
  | _ => "null"

end Number

end RobotBench
