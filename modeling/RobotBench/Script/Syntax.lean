import RobotBench.Script.Value

/-!
# The shape of scripts

A script is a list of nodes, each a statement with the number of the line it stands on.
Blocks hold nodes again. Operands are atoms: a literal, a variable, or a bare word, which
names an operation where one of that name exists and is text elsewhere.
-/

namespace RobotBench

/-- A single operand. -/
inductive Atom where
  | literal (value : Value)
  | variable (name : String)
  | word (text : String)
  deriving DecidableEq

/-- An argument as written, with or without a key. -/
structure Argument where
  key : Option String
  value : Atom
  deriving DecidableEq

/-- An operation name with its arguments in the order written. -/
structure Call where
  name : String
  arguments : List Argument
  deriving DecidableEq

/-- The right side of an assignment. -/
inductive Expression where
  | atom (operand : Atom)
  | call (call : Call)
  deriving DecidableEq

/-- The comparisons of two operands. -/
inductive Comparison where
  | eq
  | ne
  | lt
  | gt
  | le
  | ge
  deriving DecidableEq

/-- What decides a branch or another round of a loop. -/
inductive Condition where
  | truthy (operand : Atom)
  | falsy (operand : Atom)
  | compare (left : Atom) (comparison : Comparison) (right : Atom)
  deriving DecidableEq

mutual

/-- One statement; blocks carry their nodes. -/
inductive Statement where
  | assign (name : String) (value : Expression)
  | call (call : Call)
  | define (name : String) (body : List Node)
  | repeated (count : Atom) (body : List Node)
  | loop (body : List Node)
  | whilst (condition : Condition) (body : List Node)
  | branch (condition : Condition) (yes : List Node) (no : List Node)
  | leave
  | answer (value : Option Atom)

/-- A statement on its line. -/
inductive Node where
  | mk (line : Nat) (statement : Statement)

end

/-- The line of a node. -/
def Node.line : Node → Nat
  | mk line _ => line

/-- The statement of a node. -/
def Node.statement : Node → Statement
  | mk _ statement => statement

/-- A script: the nodes of its top level. -/
abbrev Script := List Node

end RobotBench
