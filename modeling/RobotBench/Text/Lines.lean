/-!
# Lines

A text falls into pieces that end with a line feed, the last one possibly without; their
concatenation is the text (`flatten_pieces`). A line is a piece without its break, which
is the line feed and one carriage return before it.
-/

namespace RobotBench.Text

/-- The lines of a text, each with its line feed. -/
def pieces : List Char → List (List Char)
  | [] => []
  | c :: rest =>
    if c = '\n' then ['\n'] :: pieces rest
    else match pieces rest with
      | [] => [[c]]
      | piece :: more => (c :: piece) :: more

/-- A line without its break. A carriage return counts as part of a break only before a
line feed. -/
def withoutBreak (piece : List Char) : List Char :=
  match piece.reverse with
  | '\n' :: '\r' :: rest => rest.reverse
  | '\n' :: rest => rest.reverse
  | _ => piece

/-- The lines of a text without their breaks. -/
def lines (cs : List Char) : List (List Char) := (pieces cs).map withoutBreak

/-- No character is lost between pieces. -/
theorem flatten_pieces (cs : List Char) : (pieces cs).flatten = cs := by
  induction cs with
  | nil => rfl
  | cons c rest ih =>
    rw [pieces]
    by_cases hc : c = '\n'
    · rw [if_pos hc, List.flatten_cons, ih, hc]
      rfl
    · rw [if_neg hc]
      cases hp : pieces rest with
      | nil => rw [hp] at ih; simp [← ih]
      | cons piece more => rw [hp] at ih; simp [← ih]

end RobotBench.Text
