/-!
# Words of a line

A line is split into words at spaces, tabs and line feeds. Quotes group: between single
quotes every character stands for itself, between double quotes a backslash takes the next
`$`, backtick, `"` or backslash literally, and outside quotes it takes any character.
Quoted parts join the word around them, so `''` makes an empty word, and `#` at the start
of a word begins a comment. A quote that is never closed makes the split fail.
-/

namespace RobotBench.Text

/-- Where the splitter stands. -/
inductive WordMode where
  /-- Between words. -/
  | gap
  /-- Inside a word, outside quotes. -/
  | plain
  /-- Between single quotes. -/
  | single
  /-- Between double quotes. -/
  | double
  /-- Inside a comment. -/
  | comment
  deriving DecidableEq

/-- A character that separates words outside quotes. -/
def isSeparator (c : Char) : Bool := c = ' ' ∨ c = '\t' ∨ c = '\n'

/-- A character that a backslash escapes between double quotes. -/
def isEscapable (c : Char) : Bool := c = '$' ∨ c = '\x60' ∨ c = '"' ∨ c = '\\'

/-- Puts characters in front of the word being read. -/
def extend (cs : List Char) : List (List Char) → List (List Char)
  | [] => [cs]
  | word :: more => (cs ++ word) :: more

/-- The words of the remaining characters. Inside a word the first one of the result is
the rest of that word. -/
def splitFrom : WordMode → List Char → Option (List (List Char))
  | .gap, [] => some []
  | .plain, [] => some [[]]
  | .single, [] => none
  | .double, [] => none
  | .comment, [] => some []
  | .gap, '\\' :: '\n' :: rest => splitFrom .gap rest
  | .gap, '\\' :: c :: rest => (splitFrom .plain rest).map (extend [c])
  | .gap, ['\\'] => some [['\\']]
  | .plain, '\\' :: '\n' :: rest => splitFrom .plain rest
  | .plain, '\\' :: c :: rest => (splitFrom .plain rest).map (extend [c])
  | .plain, ['\\'] => some [['\\']]
  | .double, '\\' :: c :: rest =>
    if c = '\n' then splitFrom .double rest
    else (splitFrom .double rest).map (extend (if isEscapable c then [c] else ['\\', c]))
  | .double, ['\\'] => none
  | .gap, c :: rest =>
    if c = '\'' then splitFrom .single rest
    else if c = '"' then splitFrom .double rest
    else if isSeparator c then splitFrom .gap rest
    else if c = '#' then splitFrom .comment rest
    else (splitFrom .plain rest).map (extend [c])
  | .plain, c :: rest =>
    if c = '\'' then splitFrom .single rest
    else if c = '"' then splitFrom .double rest
    else if isSeparator c then (splitFrom .gap rest).map ([] :: ·)
    else (splitFrom .plain rest).map (extend [c])
  | .single, c :: rest =>
    if c = '\'' then splitFrom .plain rest
    else (splitFrom .single rest).map (extend [c])
  | .double, c :: rest =>
    if c = '"' then splitFrom .plain rest
    else (splitFrom .double rest).map (extend [c])
  | .comment, c :: rest => if c = '\n' then splitFrom .gap rest else splitFrom .comment rest

/-- The words of a line, or nothing when a quote is not closed. -/
def words? (cs : List Char) : Option (List String) :=
  (splitFrom .gap cs).map (List.map String.ofList)

end RobotBench.Text
