import RobotBench.Script.Atom
import RobotBench.Script.TokenLine

/-!
# Reading scripts

Lines are read in order against a stack of open blocks. A statement joins the innermost
open block, an opening line puts a block on the stack, and `end` closes the innermost one
into a statement of the block around it. `else` turns the first branch of the innermost
`if` into its second. What is left open at the end is a fault of the innermost block.
Nothing is read twice: `OpenScript.step` takes one line, and `Script.ofLines` folds it over
all of them.
-/

namespace RobotBench

/-- What can be wrong with a line, or with the block that it opens. -/
inductive ParseCause where
  | unclosedQuote
  | arity (keyword : String) (expected given : Nat)
  | assignForm
  | invalidName (word : String)
  | invalidOperation (word : String)
  | unknownComparison (word : String)
  | conditionForm
  | leaveOutsideLoop
  | answerOutsideProcedure
  | answerForm
  | tooDeep (keyword : String) (most : Nat)
  | strayElse (keyword : String) (openedAt : Nat)
  | missingEnd (keyword : String)
  | noOpenBlock (keyword : String)
  deriving DecidableEq

/-- Why a text is no script, and the line to blame. -/
structure ParseFault where
  line : Nat
  cause : ParseCause
  deriving DecidableEq

/-- What is wrong with a line, in words. -/
def ParseCause.message : ParseCause → String
  | unclosedQuote => "tokenize"
  | arity keyword expected given =>
    s!"`{keyword}` expects {expected} argument(s), got {given}"
  | assignForm => "expected `let NAME = VALUE`"
  | invalidName word => s!"`{word}` is not a valid name"
  | invalidOperation word => s!"`{word}` is not a valid operation name"
  | unknownComparison word => s!"unknown comparison `{word}`"
  | conditionForm => "expected `VALUE`, `not VALUE` or `VALUE OP VALUE`"
  | leaveOutsideLoop => "`break` outside a loop"
  | answerOutsideProcedure => "`return` outside a def"
  | answerForm => "`return` takes at most one value"
  | tooDeep keyword most => s!"`{keyword}` nested deeper than {most} blocks"
  | strayElse keyword openedAt => s!"`else` inside `{keyword}` opened at line {openedAt}"
  | missingEnd keyword => s!"`{keyword}` block is missing `end`"
  | noOpenBlock keyword => s!"`{keyword}` without an open block"

/-- The messages of a fault, outermost first. -/
def ParseFault.messages (f : ParseFault) : List String :=
  s!"line {f.line}: {f.cause.message}" ::
    if f.cause = .unclosedQuote then ["missing closing quote"] else []

/-- What opened a block. The second branch of an `if` keeps the first. -/
inductive Opener where
  | define (name : String)
  | repeated (count : Atom)
  | loop
  | whilst (condition : Condition)
  | branch (condition : Condition)
  | otherwise (condition : Condition) (yes : List Node)

namespace Opener

/-- The keyword of the line that opened the block. -/
def keyword : Opener → String
  | define _ => "def"
  | repeated _ => "repeat"
  | loop => "loop"
  | whilst _ => "while"
  | branch _ => "if"
  | otherwise _ _ => "if"

/-- The statement that the block makes once its body is complete. -/
def close (body : List Node) : Opener → Statement
  | define name => .define name body
  | repeated count => .repeated count body
  | loop => .loop body
  | whilst condition => .whilst condition body
  | branch condition => .branch condition body []
  | otherwise condition yes => .branch condition yes body

/-- The block is the body of a loop. -/
def isLoop : Opener → Bool
  | repeated _ => true
  | loop => true
  | whilst _ => true
  | _ => false

/-- The block is the body of a procedure. -/
def isProcedure : Opener → Bool
  | define _ => true
  | _ => false

end Opener

/-- A block that is not closed yet; its nodes are kept latest first. -/
structure OpenBlock where
  line : Nat
  opener : Opener
  body : List Node

/-- What has been read so far: the open blocks, innermost first, and the nodes of the top
level, latest first. -/
structure OpenScript where
  blocks : List OpenBlock
  top : List Node

/-- How many blocks may be open at a time. -/
def maxBlockDepth : Nat := 32

/-- A loop is open inside the innermost open procedure. -/
def insideLoop : List OpenBlock → Bool
  | [] => false
  | block :: outer => block.opener.isLoop || (!block.opener.isProcedure && insideLoop outer)

/-- A procedure is open. -/
def insideProcedure (blocks : List OpenBlock) : Bool :=
  blocks.any fun block => block.opener.isProcedure

namespace OpenScript

/-- Before the first line. -/
def start : OpenScript := ⟨[], []⟩

/-- A complete node joins the innermost open block. -/
def add (node : Node) (p : OpenScript) : OpenScript :=
  match p.blocks with
  | [] => { p with top := node :: p.top }
  | block :: outer => { p with blocks := { block with body := node :: block.body } :: outer }

/-- A block is opened by a line. -/
def push (line : Nat) (opener : Opener) (p : OpenScript) : OpenScript :=
  { p with blocks := ⟨line, opener, []⟩ :: p.blocks }

/-- The innermost block is closed and joins the block around it. -/
def close (block : OpenBlock) (outer : List OpenBlock) (p : OpenScript) : OpenScript :=
  add (.mk block.line (block.opener.close block.body.reverse)) { p with blocks := outer }

end OpenScript

/-- What a line does, as far as its words alone decide. -/
inductive LineRole where
  | simple (statement : Statement)
  | opening (opener : Opener)
  | leave
  | answer (words : List String)
  | finish
  | otherwise

/-- Exactly `expected` words follow the keyword. -/
def expectArity (keyword : String) (rest : List String) (expected : Nat) :
    Except ParseCause Unit :=
  if rest.length = expected then .ok ()
  else .error (.arity keyword expected rest.length)

/-- The call that an operation name and its argument words make. -/
def readCall (name : String) (words : List String) : Except ParseCause Call :=
  if isIdentifier name then .ok ⟨name, words.map Argument.ofWord⟩
  else .error (.invalidOperation name)

/-- What follows `let`: `NAME = VALUE` or `NAME = OPERATION ARGUMENT ...`. -/
def readAssign : List String → Except ParseCause Statement
  | name :: equals :: first :: more =>
    if equals ≠ "=" then .error .assignForm
    else if !isIdentifier name then .error (.invalidName name)
    else match more with
      | [] => .ok (.assign name (.atom (Atom.ofWord first)))
      | _ => (readCall first more).map fun call => .assign name (.call call)
  | _ => .error .assignForm

/-- What follows `while` and `if`: `VALUE`, `not VALUE` or `VALUE OP VALUE`. -/
def readCondition : List String → Except ParseCause Condition
  | [operand] => .ok (.truthy (Atom.ofWord operand))
  | [word, operand] =>
    if word = "not" then .ok (.falsy (Atom.ofWord operand)) else .error .conditionForm
  | [left, sign, right] =>
    match Comparison.ofSymbol? sign with
    | some comparison => .ok (.compare (Atom.ofWord left) comparison (Atom.ofWord right))
    | none => .error (.unknownComparison sign)
  | _ => .error .conditionForm

/-- The procedure name after `def`. -/
def readDefine (rest : List String) : Except ParseCause Opener :=
  match rest with
  | [name] =>
    if isIdentifier name then .ok (.define name) else .error (.invalidName name)
  | _ => .error (.arity "def" 1 rest.length)

/-- The count after `repeat`. -/
def readRepeated (rest : List String) : Except ParseCause Opener :=
  match rest with
  | [count] => .ok (.repeated (Atom.ofWord count))
  | _ => .error (.arity "repeat" 1 rest.length)

/-- What a line does. -/
def TokenLine.role (line : TokenLine) : Except ParseCause LineRole :=
  if line.head = "end" then (expectArity "end" line.rest 0).map fun _ => .finish
  else if line.head = "else" then (expectArity "else" line.rest 0).map fun _ => .otherwise
  else if line.head = "let" then (readAssign line.rest).map .simple
  else if line.head = "def" then (readDefine line.rest).map .opening
  else if line.head = "repeat" then (readRepeated line.rest).map .opening
  else if line.head = "loop" then (expectArity "loop" line.rest 0).map fun _ => .opening .loop
  else if line.head = "while" then
    (readCondition line.rest).map fun condition => .opening (.whilst condition)
  else if line.head = "if" then
    (readCondition line.rest).map fun condition => .opening (.branch condition)
  else if line.head = "break" then (expectArity "break" line.rest 0).map fun _ => .leave
  else if line.head = "return" then .ok (.answer line.rest)
  else (readCall line.head line.rest).map fun call => .simple (.call call)

/-- The statement of a `return` line. -/
def readAnswer : List String → Except ParseCause Statement
  | [] => .ok (.answer none)
  | [word] => .ok (.answer (some (Atom.ofWord word)))
  | _ => .error .answerForm

namespace OpenScript

/-- What a role does to what has been read, for a line of the given number. -/
def act (number : Nat) (p : OpenScript) : LineRole → Except ParseCause OpenScript
  | .simple statement => .ok (p.add (.mk number statement))
  | .opening opener =>
    if maxBlockDepth ≤ p.blocks.length then .error (.tooDeep opener.keyword maxBlockDepth)
    else .ok (p.push number opener)
  | .leave =>
    if insideLoop p.blocks then .ok (p.add (.mk number .leave)) else .error .leaveOutsideLoop
  | .answer words =>
    if insideProcedure p.blocks then
      (readAnswer words).map fun statement => p.add (.mk number statement)
    else .error .answerOutsideProcedure
  | .finish =>
    match p.blocks with
    | [] => .error (.noOpenBlock "end")
    | block :: outer => .ok (p.close block outer)
  | .otherwise =>
    match p.blocks with
    | [] => .error (.noOpenBlock "else")
    | block :: outer =>
      match block.opener with
      | .branch condition =>
        let second := Opener.otherwise condition block.body.reverse
        .ok { p with blocks := ⟨block.line, second, []⟩ :: outer }
      | opener => .error (.strayElse opener.keyword block.line)

/-- Reads one line. -/
def step (p : OpenScript) (line : TokenLine) : Except ParseFault OpenScript :=
  match line.role with
  | .error cause => .error ⟨line.number, cause⟩
  | .ok role => (p.act line.number role).mapError fun cause => ⟨line.number, cause⟩

/-- Reads lines in order up to the first fault. -/
def steps : List TokenLine → OpenScript → Except ParseFault OpenScript
  | [], p => .ok p
  | line :: more, p =>
    match p.step line with
    | .error fault => .error fault
    | .ok p => steps more p

/-- The script, once no block is open. -/
def finish (p : OpenScript) : Except ParseFault Script :=
  match p.blocks with
  | [] => .ok p.top.reverse
  | block :: _ => .error ⟨block.line, .missingEnd block.opener.keyword⟩

end OpenScript

namespace Script

/-- The script that lines make. -/
def ofLines (lines : List TokenLine) : Except ParseFault Script :=
  match OpenScript.start.steps lines with
  | .error fault => .error fault
  | .ok p => p.finish

/-- The script that a text is, its lines numbered from `firstLine` on. -/
def ofText (text : String) (firstLine : Nat) : Except ParseFault Script :=
  match tokenLines firstLine (Text.lines text.toList) with
  | .error line => .error ⟨line, .unclosedQuote⟩
  | .ok lines => ofLines lines

end Script

end RobotBench
