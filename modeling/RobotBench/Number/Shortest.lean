import RobotBench.Number.Decimal

/-!
# The fewest digits that read back

`shortest` writes a positive count of units as the decimal with the fewest digits that
rounds back to it, and of those as the nearest one. On each decimal grid, from coarse to
fine, only the two neighbours of the value can be the nearest point that reads back; which
of two equally near neighbours is taken is up to the caller. A candidate is taken only
after it has been read back, and the exact decimal expansion stands behind all grids.
-/

namespace RobotBench

/-- Of two candidates the one that passes a test; of two that pass, the one that is
preferred. -/
def choose? {α : Type} (test : α → Bool) (preferFirst : Bool) (first second : α) : Option α :=
  match test first, test second with
  | true, true => some (if preferFirst then first else second)
  | true, false => some first
  | false, true => some second
  | false, false => none

namespace Decimal

/-- The choice between two equally near neighbours. -/
inductive Tie where
  /-- The greater one. -/
  | up
  /-- The one whose last digit is even. -/
  | even
  deriving DecidableEq

/-- The value of a count of units as a quotient of naturals, measured in `10 ^ exponent`. -/
def onGrid (units : Nat) (exponent : Int) : Nat × Nat :=
  (units * Nat.pow 10 (-exponent).toNat, Number.unitsPerOne * Nat.pow 10 exponent.toNat)

/-- The nearer of the two neighbours on a grid that read back, if any does. -/
def neighbour? (tie : Tie) (units : Nat) (exponent : Int) : Option Decimal :=
  let (num, den) := onGrid units exponent
  let low : Decimal := ⟨num / den, exponent⟩
  let high : Decimal := ⟨num / den + 1, exponent⟩
  let twice := 2 * (num % den)
  choose? (fun d : Decimal => d.round = units)
    (twice < den ∨ (twice = den ∧ tie = .even ∧ low.coefficient % 2 = 0)) low high

/-- The exact decimal expansion of a count of units. -/
def exact (units : Nat) : Decimal := ⟨units * Nat.pow 5 1074, -1074⟩

/-- The first hit on the next `count` grids, each ten times as fine as the one before. -/
def search (tie : Tie) (units : Nat) : Nat → Int → Option Decimal
  | 0, _ => none
  | count + 1, exponent =>
    (neighbour? tie units exponent).or (search tie units count (exponent - 1))

/-- The exponent of the leading digit: the greatest `k` with `10 ^ k` at most the value. -/
def leading (units : Nat) : Int :=
  let reaches (k : Int) : Bool :=
    Number.unitsPerOne * Nat.pow 10 k.toNat ≤ units * Nat.pow 10 (-k).toNat
  let guess := ((units.log2 : Int) - 1074) * 30103 / 100000
  if reaches (guess + 1) then guess + 1 else if reaches guess then guess else guess - 1

/-- The decimal without up to `count` zeros at the end of its coefficient. -/
def trim : Nat → Decimal → Decimal
  | 0, d => d
  | count + 1, d =>
    if d.coefficient ≠ 0 ∧ d.coefficient % 10 = 0 then
      trim count ⟨d.coefficient / 10, d.exponent + 1⟩
    else d

/-- The decimal without the zeros at the end of its coefficient, which has fewer digits
than bits. -/
def trimZeros (d : Decimal) : Decimal := d.trim d.coefficient.log2

/-- The decimal with the fewest digits that reads back as the count of units. -/
def shortest (tie : Tie) (units : Nat) : Decimal :=
  ((search tie units 17 (leading units)).getD (exact units)).trimZeros

end Decimal

end RobotBench
