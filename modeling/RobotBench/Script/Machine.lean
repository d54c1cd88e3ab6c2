import RobotBench.Script.Syntax
import RobotBench.Script.Arguments

/-!
# What a script runs on

A machine holds the world that operations act on, the names the script has bound and the
steps it has taken. The world is any type: a `Host` says which operations exist and what
they do to it, and may watch the run. An execution takes a machine to a result and the
machine afterwards; the machine is there also when the execution stops early.
-/

namespace RobotBench

/-- The names that scripts bind: variables and procedures. -/
structure Namespace where
  values : Table Value
  procedures : Table (List Node)

namespace Namespace

/-- Nothing is bound. -/
def empty : Namespace := ⟨.empty, .empty⟩

/-- The variable gets the value. -/
def assign (names : Namespace) (name : String) (value : Value) : Namespace :=
  { names with values := names.values.set name value }

/-- The procedure gets the body. -/
def define (names : Namespace) (name : String) (body : List Node) : Namespace :=
  { names with procedures := names.procedures.set name body }

end Namespace

/-- What a host may watch in a run. -/
inductive Event where
  /-- A step was counted and did not pass the limit. -/
  | step
  /-- An operation of the host is about to run. -/
  | operation (name : String)
  /-- A procedure was entered, with the body it has. -/
  | enter (procedure : String) (body : List Node)
  /-- The procedure entered last that is still active was left. -/
  | exit (procedure : String)
  /-- A block began to run. -/
  | openBlock
  /-- The block that began last and still runs has ended. -/
  | closeBlock

/-- The surroundings of a script: its operations and a watcher, over a world `ω`. -/
structure Host (ω : Type) where
  /-- What the operation of a name does with arguments; nothing when there is none. -/
  operation? : String → Option (Arguments → ω → Except Cause Value × ω)
  watch : Event → ω → ω

/-- The world, the names and the steps of a run. -/
structure Machine (ω : Type) where
  world : ω
  names : Namespace
  steps : Nat

/-- Why an execution stopped early. -/
inductive Halt where
  | fault (fault : Fault)
  /-- A loop came round more often than the execution was to follow it. -/
  | endless
  deriving DecidableEq

/-- An execution with results in `α`. -/
abbrev Exec (ω α : Type) : Type := ExceptT Halt (StateM (Machine ω)) α

/-- How a statement ends when it does not fail. -/
inductive Flow where
  | next
  | leave
  | answer (value : Value)
  deriving DecidableEq

namespace Exec

variable {ω α : Type}

/-- Fails with a cause. -/
def fail (cause : Cause) : Exec ω α := throw (.fault ⟨[], cause⟩)

/-- The result of a computation that leaves the machine alone. -/
def ofExcept : Except Cause α → Exec ω α
  | .ok a => pure a
  | .error cause => fail cause

/-- Adds a step to the path of any fault. -/
def under (frame : Frame) (x : Exec ω α) : Exec ω α := fun m =>
  match x m with
  | (.error (.fault f), m) => (.error (.fault (f.under frame)), m)
  | result => result

/-- Lets the host watch an event. -/
def notice (host : Host ω) (event : Event) : Exec ω Unit :=
  modify fun m => { m with world := host.watch event m.world }

/-- Lets the host watch the beginning of an execution and, however it ends, its end. -/
def between (host : Host ω) (first last : Event) (x : Exec ω α) : Exec ω α := fun m =>
  match x { m with world := host.watch first m.world } with
  | (result, m) => (result, { m with world := host.watch last m.world })

/-- Repeats a body a number of times, less often when the body leaves. -/
def times (body : Exec ω Flow) : Nat → Exec ω Flow
  | 0, m => (.ok .next, m)
  | count + 1, m =>
    match body m with
    | (.ok .next, m) => times body count m
    | (.ok .leave, m) => (.ok .next, m)
    | result => result

/-- Repeats a body until it leaves, with `pause` after each round that does not. -/
def forever (body : Exec ω Flow) (pause : Exec ω Unit) : Nat → Exec ω Flow
  | 0, m => (.error .endless, m)
  | rounds + 1, m =>
    match body m with
    | (.ok .next, m) =>
      match pause m with
      | (.ok (), m) => forever body pause rounds m
      | (.error halt, m) => (.error halt, m)
    | (.ok .leave, m) => (.ok .next, m)
    | result => result

/-- Repeats a body as long as the test holds, with `pause` after each round that does
not leave. -/
def whilst (test : Exec ω Bool) (body : Exec ω Flow) (pause : Exec ω Unit) :
    Nat → Exec ω Flow
  | 0, m => (.error .endless, m)
  | rounds + 1, m =>
    match test m with
    | (.ok false, m) => (.ok .next, m)
    | (.error halt, m) => (.error halt, m)
    | (.ok true, m) =>
      match body m with
      | (.ok .next, m) =>
        match pause m with
        | (.ok (), m) => whilst test body pause rounds m
        | (.error halt, m) => (.error halt, m)
      | (.ok .leave, m) => (.ok .next, m)
      | result => result

end Exec

end RobotBench
