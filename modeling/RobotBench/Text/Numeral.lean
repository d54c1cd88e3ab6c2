/-!
# Numerals

Natural numbers written with the ASCII digits. `numeral` is the number of any run of
digits, none included; `natural?` asks for at least one digit and nothing else.
-/

namespace RobotBench.Text

/-- The natural number that a run of digits denotes. -/
def numeral (digits : List Char) : Nat :=
  digits.foldl (fun n c => 10 * n + (c.toNat - '0'.toNat)) 0

/-- The natural number that a text of digits denotes. -/
def natural? (cs : List Char) : Option Nat :=
  if cs ≠ [] ∧ cs.all Char.isDigit then some (numeral cs) else none

end RobotBench.Text
