/-!
# Patterns

A pattern matches a line that contains one of some texts: the texts are escaped, so that their
characters stand for themselves, and are its alternatives. A pattern is compiled before it is used,
and a compiler may refuse one, for it bounds how large a compiled pattern may be.
-/

namespace RobotBench.Pattern

/-- The characters that do not stand for themselves in a pattern. -/
def special : List Char :=
  ['\\', '.', '+', '*', '?', '(', ')', '|', '[', ']', '\x7b', '\x7d', '^', '$', '#', '&', '-', '~']

/-- A text with its special characters escaped. -/
def escape (text : List Char) : List Char :=
  text.flatMap fun c => if c ∈ special then ['\\', c] else [c]

/-- The pattern with the texts as its alternatives. -/
def anyOf (texts : List String) : String :=
  "|".intercalate (texts.map fun text => String.ofList (escape text.toList))

/-- Says of a pattern that it can be compiled, or why it cannot. -/
abbrev Compiler := String → Except String Unit

/-- The most bytes that a compiled pattern may take. -/
def sizeLimit : Nat := 10485760

/-- The bytes that each state of a compiled pattern takes. -/
def stateSize : Nat := 32

/-- How many bytes of text the alternatives of a pattern hold beside those counted already. -/
def heldBytes (counted : Nat) : List Char → Nat
  | [] => counted
  | '\\' :: c :: more => heldBytes (counted + c.utf8Size) more
  | '|' :: more => heldBytes counted more
  | c :: more => heldBytes (counted + c.utf8Size) more

/-- Compiles alternatives of escaped texts, with a state for each byte of them, up to the size
limit. -/
def bounded : Compiler := fun pattern =>
  if sizeLimit < stateSize * heldBytes 0 pattern.toList then
    .error s!"Compiled regex exceeds size limit of {sizeLimit} bytes."
  else .ok ()

end RobotBench.Pattern
