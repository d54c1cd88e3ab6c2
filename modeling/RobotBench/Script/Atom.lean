import RobotBench.Script.Syntax

/-!
# Reading operands

What a single word means as an operand, as an argument and as a name. A word in front of
`=` is a key only when it is an identifier and something follows.
-/

namespace RobotBench

/-- A letter of the ASCII alphabet or an underscore. -/
def isNameStart (c : Char) : Bool := c.isAlpha || c = '_'

/-- A letter, a digit or an underscore. -/
def isNamePart (c : Char) : Bool := c.isAlphanum || c = '_'

/-- The characters make a name. -/
def isIdentifierChars : List Char → Bool
  | [] => false
  | c :: rest => isNameStart c && rest.all isNamePart

/-- The word is a name. -/
def isIdentifier (word : String) : Bool := isIdentifierChars word.toList

/-- The name after a dollar sign. -/
def variableName? (word : String) : Option String :=
  match word.toList with
  | '$' :: name => if isIdentifierChars name then some (String.ofList name) else none
  | _ => none

/-- The words that are literals beside the numbers. -/
def constant? (word : String) : Option Value :=
  if word = "true" then some (.bool true)
  else if word = "false" then some (.bool false)
  else if word = "nil" then some .nil
  else (readNumber? word).map .number

namespace Atom

/-- The operand that a word is. -/
def ofWord (word : String) : Atom :=
  match variableName? word with
  | some name => .variable name
  | none => match constant? word with
    | some value => .literal value
    | none => .word word

end Atom

namespace Argument

/-- The argument that a word is. -/
def ofWord (word : String) : Argument :=
  let cs := word.toList
  let key := cs.takeWhile (fun c => c ≠ '=')
  match cs.dropWhile (fun c => c ≠ '=') with
  | '=' :: c :: value =>
    if isIdentifierChars key then
      ⟨some (String.ofList key), Atom.ofWord (String.ofList (c :: value))⟩
    else ⟨none, Atom.ofWord word⟩
  | _ => ⟨none, Atom.ofWord word⟩

end Argument

namespace Comparison

/-- The sign of a comparison. -/
def symbol : Comparison → String
  | eq => "=="
  | ne => "!="
  | lt => "<"
  | gt => ">"
  | le => "<="
  | ge => ">="

/-- All comparisons. -/
def all : List Comparison := [eq, ne, lt, gt, le, ge]

/-- The comparison of a sign. -/
def ofSymbol? (word : String) : Option Comparison := all.find? fun c => c.symbol = word

end Comparison

end RobotBench
