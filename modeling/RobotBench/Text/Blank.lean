/-!
# White space

The characters with the Unicode property White_Space, and texts cut free of them at both
ends. Words of a script line are separated by fewer characters: see
`RobotBench.Text.Words`.
-/

namespace RobotBench.Text

/-- The character has the Unicode property White_Space. -/
def isBlank (c : Char) : Bool :=
  ('\t' ≤ c ∧ c ≤ '\r') ∨ c = ' ' ∨ c = '\u0085' ∨ c = '\u00a0' ∨ c = '\u1680' ∨
    ('\u2000' ≤ c ∧ c ≤ '\u200a') ∨ c = '\u2028' ∨ c = '\u2029' ∨ c = '\u202f' ∨
    c = '\u205f' ∨ c = '\u3000'

/-- The text without the blanks at its ends. -/
def trim (cs : List Char) : List Char :=
  ((cs.dropWhile isBlank).reverse.dropWhile isBlank).reverse

/-- The text holds nothing but blanks. -/
def allBlank (text : String) : Bool := text.toList.all isBlank

/-- The first run of characters that are not blank, if there is one. -/
def firstWord? (cs : List Char) : Option (List Char) :=
  match (cs.dropWhile isBlank).takeWhile (fun c => !isBlank c) with
  | [] => none
  | word => some word

end RobotBench.Text
