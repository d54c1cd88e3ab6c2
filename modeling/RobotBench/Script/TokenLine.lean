import RobotBench.Text.Blank
import RobotBench.Text.Lines
import RobotBench.Text.Words

/-!
# Lines of a script

The lines of a text that say something, each as its words and its number. Blank lines and
lines that begin with `#` say nothing, and neither does a line whose words are all in a
comment. A line whose quotes do not close makes the whole text unreadable.
-/

namespace RobotBench

/-- The words of a line, of which there is at least one, and the line's number. -/
structure TokenLine where
  number : Nat
  head : String
  rest : List String
  deriving DecidableEq

/-- All words of the line. -/
def TokenLine.tokens (line : TokenLine) : List String := line.head :: line.rest

/-- The words of a line of text, or nothing when a quote in it is not closed. -/
def lineWords? (cs : List Char) : Option (List String) :=
  match Text.trim cs with
  | [] => some []
  | '#' :: _ => some []
  | trimmed => Text.words? trimmed

/-- The lines that say something, numbered from `number` on; the number of the first line
with an open quote if there is one. -/
def tokenLines : Nat → List (List Char) → Except Nat (List TokenLine)
  | _, [] => .ok []
  | number, cs :: more =>
    match lineWords? cs with
    | none => .error number
    | some words => (tokenLines (number + 1) more).map fun lines =>
      match words with
      | [] => lines
      | head :: rest => ⟨number, head, rest⟩ :: lines

end RobotBench
