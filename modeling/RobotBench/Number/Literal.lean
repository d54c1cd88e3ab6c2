import RobotBench.Number.Decimal
import RobotBench.Text.Numeral

/-!
# Decimal literals

A literal is an optional sign, digits with at most one point among or beside them, and an
optional power of ten: `[+-]? (digits [. digits?] | . digits) ([eE] [+-]? digits)?` over
the ASCII digits. Floating-point notation has words beside these, for what is infinite and for
what is no number. `readFloat?` reads both, and `readNumber?` only what has a digit or a point
behind its signs, so that words such as `inf` and `nan` are no numbers.
-/

namespace RobotBench

namespace Literal

/-- A leading sign, and whether it is a minus. -/
def sign : List Char → Bool × List Char
  | '-' :: rest => (true, rest)
  | '+' :: rest => (false, rest)
  | rest => (false, rest)

/-- The digits at the front, and what follows them. -/
def digits (cs : List Char) : List Char × List Char :=
  (cs.takeWhile Char.isDigit, cs.dropWhile Char.isDigit)

/-- The power of ten at the end of a literal; nothing written means zero. -/
def power? : List Char → Option Int
  | [] => some 0
  | c :: rest =>
    if c = 'e' ∨ c = 'E' then
      let (negative, rest) := sign rest
      (Text.natural? rest).map fun n => if negative then -(n : Int) else n
    else none

/-- The digits after the point, and what follows them. -/
def fraction : List Char → List Char × List Char
  | '.' :: rest => digits rest
  | rest => ([], rest)

/-- A literal without its sign. -/
def decimal? (cs : List Char) : Option Decimal :=
  let (whole, rest) := digits cs
  let (part, rest) := fraction rest
  if whole = [] ∧ part = [] then none
  else (power? rest).map fun power => ⟨Text.numeral (whole ++ part), power - part.length⟩

/-- What a word of floating-point notation stands for, whatever the case of its letters. -/
def special? (negative : Bool) (word : List Char) : Option Number :=
  let word := word.map Char.toLower
  if word = ['i', 'n', 'f'] ∨ word = ['i', 'n', 'f', 'i', 'n', 'i', 't', 'y'] then
    some (.infinite negative)
  else if word = ['n', 'a', 'n'] then some .nan
  else none

/-- The character is a minus or a plus. -/
def isSign (c : Char) : Bool := c = '-' ∨ c = '+'

/-- Behind all its signs the text begins with a digit or a point. -/
def beginsNumeric (cs : List Char) : Bool :=
  match cs.dropWhile isSign with
  | c :: _ => c.isDigit || c = '.'
  | [] => false

end Literal

/-- The number that a text denotes in floating-point notation, where words are numbers too. -/
def readFloat? (text : String) : Option Number :=
  let (negative, rest) := Literal.sign text.toList
  match Literal.decimal? rest with
  | some d => some (d.toNumber negative)
  | none => Literal.special? negative rest

/-- The number that a decimal literal denotes; nothing for any other text. -/
def readNumber? (text : String) : Option Number :=
  if Literal.beginsNumeric text.toList then readFloat? text else none

end RobotBench
