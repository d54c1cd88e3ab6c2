import RobotBench.Script.Binding
import RobotBench.Script.Builtin
import RobotBench.Script.Machine

/-!
# What scripts do

The meaning of every part of a script as an execution, by recursion on the part alone.
Two numbers bound what the shape of the script does not: how often a loop is followed, and
how deep procedures may be nested. The meaning of a call of a procedure is a parameter of
the meaning of its caller, so `enter` builds it level by level from the deepest one.
-/

namespace RobotBench

/-- How a script is run: the host, the most steps it may take, and how many rounds of one
loop are followed. -/
structure Setting (ω : Type) where
  host : Host ω
  maxSteps : Option Nat
  rounds : Nat

/-- How a call enters a procedure of a name and a body. -/
abbrev Entry (ω : Type) : Type := String → List Node → Exec ω Value

/-- How many procedures may be active at a time. -/
def maxCallDepth : Nat := 64

/-- The greatest number of rounds that a count can ask for. -/
def maxCount : Nat := UInt64.size - 1

/-- Whether two values are in a relation; only numbers have an order. -/
def Comparison.holds (c : Comparison) (left right : Value) : Except Cause Bool :=
  match c with
  | .eq => .ok (left.looselyEquals right)
  | .ne => .ok !left.looselyEquals right
  | .lt => order Number.below
  | .gt => order fun x y => y.below x
  | .le => order Number.atMost
  | .ge => order fun x y => y.atMost x
where
  /-- Relates the numeric views of both sides. -/
  order (r : Number → Number → Bool) : Except Cause Bool :=
    match left.number?, right.number? with
    | some x, some y => .ok (r x y)
    | _, _ => .error (.unordered left right)

/-- How often a value asks for a body to be repeated. -/
def Value.count (value : Value) : Except Cause Nat :=
  match value.number? with
  | none => .error (.countNotNumber value)
  | some x => match x.toNat? with
    | none => .error (.countNotWhole x)
    | some n => .ok (min n maxCount)

section

variable {ω : Type} (setting : Setting ω) (entry : Entry ω)

/-- Counts a step, which fails once the limit is passed. -/
def countStep : Exec ω Unit := do
  modify fun m => { m with steps := m.steps + 1 }
  match setting.maxSteps with
  | none => Exec.notice setting.host .step
  | some limit =>
    if limit < (← get).steps then Exec.fail (.stepLimit limit)
    else Exec.notice setting.host .step

/-- Runs an operation of the host. -/
def runOperation (name : String) (act : Arguments → ω → Except Cause Value × ω)
    (arguments : Arguments) : Exec ω Value := do
  Exec.notice setting.host (.operation name)
  let m ← get
  let (result, world) := act arguments m.world
  set { m with world }
  Exec.ofExcept result

/-- Calls what a name stands for: a procedure before an operation of the host. -/
def callNamed (name : String) (arguments : Arguments) : Exec ω Value := do
  match (← get).names.procedures.find? name with
  | some body =>
    if arguments.isEmpty then entry name body else Exec.fail (.procedureArguments name)
  | none => match setting.host.operation? name with
    | some act => runOperation setting name act arguments
    | none => Exec.fail (.unknownOperation name)

/-- A name stands for a procedure, or is in one of the two lists of operations. -/
def isCallable (names : Namespace) (name : String) : Bool :=
  names.procedures.contains name || Builtin.names.contains name || Binding.names.contains name

/-- The value of an operand that calls nothing: a bare word is text. -/
def plainValue (names : Namespace) : Atom → Except Cause Value
  | .literal value => .ok value
  | .word text => .ok (.text text)
  | .variable name => match names.values.find? name with
    | some value => .ok value
    | none => .error (.undefinedVariable name)

/-- The value of an operand that calls nothing, in the machine at hand. -/
def readOperand (operand : Atom) : Exec ω Value := do
  Exec.ofExcept (plainValue (← get).names operand)

/-- The value of an operand in the place of an expression, where a word that names
something callable is called without arguments. -/
def evaluate (operand : Atom) : Exec ω Value := do
  match operand with
  | .word text =>
    if isCallable (← get).names text then callNamed setting entry text .none
    else return .text text
  | _ => readOperand operand

/-- The arguments of a call, read from left to right. -/
def gather (names : Namespace) : List Argument → Arguments → Except Cause Arguments
  | [], done => .ok done
  | argument :: more, done =>
    match plainValue names argument.value with
    | .ok value => gather names more (done.push argument.key value)
    | .error cause => .error cause

/-- The value of a call. -/
def Call.run (call : Call) : Exec ω Value := do
  let arguments ← Exec.ofExcept (gather (← get).names call.arguments .none)
  callNamed setting entry call.name arguments

/-- The value of the right side of an assignment. -/
def Expression.run : Expression → Exec ω Value
  | .atom operand => evaluate setting entry operand
  | .call c => c.run setting entry

/-- Whether a condition holds. Both sides of a comparison are read without calling
anything. -/
def Condition.test : Condition → Exec ω Bool
  | .truthy operand => do return (← evaluate setting entry operand).isTruthy
  | .falsy operand => do return !(← evaluate setting entry operand).isTruthy
  | .compare left comparison right => do
    let left ← readOperand left
    let right ← readOperand right
    Exec.ofExcept (comparison.holds left right)

/-- How often the operand of a `repeat` asks for its body. -/
def readCount (operand : Atom) : Exec ω Nat := do
  Exec.ofExcept (← evaluate setting entry operand).count

/-- Runs the inside of a block. -/
def inBlock (x : Exec ω Flow) : Exec ω Flow :=
  Exec.between setting.host .openBlock .closeBlock x

mutual

/-- What a statement does, without its own step. -/
def Statement.run : Statement → Exec ω Flow
  | .assign name value => do
    let value ← value.run setting entry
    modify fun m => { m with names := m.names.assign name value }
    return .next
  | .call c => do
    let _ ← c.run setting entry
    return .next
  | .define name body => do
    modify fun m => { m with names := m.names.define name body }
    return .next
  | .repeated count body => do
    let count ← readCount setting entry count
    Exec.times (inBlock setting (runNodes body)) count
  | .loop body =>
    Exec.forever (inBlock setting (runNodes body)) (countStep setting) setting.rounds
  | .whilst condition body =>
    Exec.whilst (condition.test setting entry) (inBlock setting (runNodes body))
      (countStep setting) setting.rounds
  | .branch condition yes no => do
    if ← condition.test setting entry then inBlock setting (runNodes yes)
    else inBlock setting (runNodes no)
  | .leave => return .leave
  | .answer none => return .answer .nil
  | .answer (some operand) => do return .answer (← evaluate setting entry operand)
  termination_by structural statement => statement

/-- What a node does: its statement is a step, and its line is part of the path to any
fault. -/
def Node.run : Node → Exec ω Flow
  | .mk line statement => Exec.under (.line line) do
    countStep setting
    statement.run
  termination_by structural node => node

/-- Runs nodes in order up to the first that does not end with `next`. -/
def runNodes : List Node → Exec ω Flow
  | [] => return .next
  | node :: more => do
    match ← node.run with
    | .next => runNodes more
    | flow => return flow
  termination_by structural nodes => nodes

end

end

section

variable {ω : Type} (setting : Setting ω)

/-- The value that a procedure leaves: its answer, or nil. -/
def Flow.value : Flow → Value
  | .answer value => value
  | _ => .nil

/-- Runs a block of its own. -/
def runBody (entry : Entry ω) (body : List Node) : Exec ω Flow :=
  inBlock setting (runNodes setting entry body)

/-- Enters a procedure when at most `depth` more may be active at a time. -/
def enter : Nat → Entry ω
  | 0, name, _ => Exec.fail (.callDepth name maxCallDepth)
  | depth + 1, name, body => do
    let flow ← Exec.under (.procedure name)
      (Exec.between setting.host (.enter name body) (.exit name)
        (runBody setting (enter depth) body))
    return flow.value

/-- Runs the top level of a script. -/
def Script.run (script : Script) : Exec ω Unit := do
  match ← runBody setting (enter setting maxCallDepth) script with
  | .next => return
  | _ => Exec.fail .escapedFlow

/-- Calls a procedure that a script has defined. -/
def callProcedure (name : String) : Exec ω Value := do
  match (← get).names.procedures.find? name with
  | some body => enter setting maxCallDepth name body
  | none => Exec.fail (.undefinedProcedure name)

end

end RobotBench
