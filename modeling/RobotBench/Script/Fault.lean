import RobotBench.Script.Value

/-!
# Faults of a running script

A fault is what went wrong and the path of active statements and procedures down to it,
outermost first. `Fault.messages` gives one message for each step of the path and one for
the cause.
-/

namespace RobotBench

/-- What can be wrong with the arguments of an operation. -/
inductive ArgumentFault where
  | takesNone
  | tooMany (most given : Nat)
  | unknownKey (key : String)
  | notNumber (key : String) (value : Value)
  | missing (key : String)
  deriving DecidableEq

/-- What a script can fail with. -/
inductive Cause where
  | stepLimit (limit : Nat)
  | callDepth (procedure : String) (limit : Nat)
  | escapedFlow
  | undefinedVariable (name : String)
  | unknownOperation (name : String)
  | undefinedProcedure (name : String)
  | procedureArguments (name : String)
  | countNotNumber (value : Value)
  | countNotWhole (count : Number)
  | unordered (left right : Value)
  | argument (operation : String) (fault : ArgumentFault)
  | failed (message : String)
  | notObservation (operation : String) (value : Value)
  | indexNotWhole (operation : String) (index : Number)
  | indexOutOfRange (operation : String) (index : Number) (count : Nat)
  | delayNotFinite
  | sinkClosed
  deriving DecidableEq

/-- What is wrong with the arguments of an operation, in words. -/
def ArgumentFault.message (operation : String) : ArgumentFault → String
  | takesNone => s!"`{operation}` takes no arguments"
  | tooMany most given => s!"`{operation}` takes at most {most} argument(s), got {given}"
  | unknownKey key => s!"`{operation}` has no argument named `{key}`"
  | notNumber key value =>
    s!"`{operation}` argument `{key}` must be a number, got {value.kind} `{value.render}`"
  | missing key => s!"`{operation}` is missing argument `{key}`"

/-- What went wrong, in words. -/
def Cause.message : Cause → String
  | stepLimit limit => s!"step limit of {limit} exceeded"
  | callDepth procedure limit => s!"call depth limit of {limit} exceeded in `{procedure}`"
  | escapedFlow => "control flow escaped the payload"
  | undefinedVariable name => s!"undefined variable `${name}`"
  | unknownOperation name => s!"unknown operation `{name}`"
  | undefinedProcedure name => s!"payload defines no `{name}`"
  | procedureArguments name => s!"procedure `{name}` takes no arguments"
  | countNotNumber value => s!"`repeat` count must be a number, got `{value.render}`"
  | countNotWhole count => s!"`repeat` count must be a whole number, got {count.plain}"
  | unordered left right =>
    s!"cannot order {left.kind} `{left.render}` and {right.kind} `{right.render}`"
  | argument operation fault => fault.message operation
  | failed message => s!"payload failed: {message}"
  | notObservation operation value =>
    s!"`{operation}` expects an observation, got {value.kind} `{value.render}`"
  | indexNotWhole operation index =>
    s!"`{operation}` index must be a whole number, got {index.plain}"
  | indexOutOfRange operation index count =>
    s!"`{operation}` index {index.plain} out of range for {count} detection(s)"
  | delayNotFinite => "`wait_key` delay must be finite"
  | sinkClosed => "sink closed"

/-- One step of the path to a fault. -/
inductive Frame where
  | line (number : Nat)
  | procedure (name : String)
  deriving DecidableEq

/-- A step of the path, in words. -/
def Frame.message : Frame → String
  | line number => s!"payload line {number}"
  | procedure name => s!"in procedure `{name}`"

/-- A cause and the path that leads to it. -/
structure Fault where
  path : List Frame
  cause : Cause
  deriving DecidableEq

namespace Fault

/-- The fault seen from one step further out. -/
def under (frame : Frame) (f : Fault) : Fault := { f with path := frame :: f.path }

/-- The messages of a fault, outermost first. -/
def messages (f : Fault) : List String := f.path.map Frame.message ++ [f.cause.message]

end Fault

end RobotBench
