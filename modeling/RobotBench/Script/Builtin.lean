import RobotBench.Script.Arguments
import RobotBench.Script.Sink

/-!
# Builtins

The operations that every script has beside those of the robot: printing, failing,
arithmetic, and questions about an observation. `ofName?_eq_some_iff` says that a builtin
is found under its own name only.
-/

namespace RobotBench

/-- The operations that need no robot. -/
inductive Builtin where
  | print
  | fail
  | add
  | sub
  | count
  | label
  | position
  | confidence
  deriving DecidableEq

namespace Builtin

/-- The name of a builtin in scripts. -/
def name : Builtin → String
  | print => "print"
  | fail => "fail"
  | add => "add"
  | sub => "sub"
  | count => "count"
  | label => "label"
  | position => "position"
  | confidence => "confidence"

/-- All builtins. -/
def all : List Builtin := [print, fail, add, sub, count, label, position, confidence]

/-- The names that are builtins. -/
def names : List String :=
  ["print", "fail", "add", "sub", "count", "label", "position", "confidence"]

/-- The builtin of a name. -/
def ofName? (text : String) : Option Builtin := all.find? fun b => b.name = text

/-- A builtin is found under its own name only. -/
theorem ofName?_eq_some_iff {text : String} {b : Builtin} :
    ofName? text = some b ↔ text = b.name := by
  constructor
  · intro h
    have := List.find?_some h
    simpa [eq_comm] using this
  · rintro rfl
    cases b <;> decide

/-- The message that arguments make: those without a key, then `key=value`, joined by
spaces. -/
def message (a : Arguments) : String :=
  " ".intercalate (a.positional.map Value.render ++
    a.keyword.entries.map fun (key, value) => key ++ "=" ++ value.render)

/-- Two numbers and nothing else. -/
def operands (operation : String) (a : Arguments) : Except Cause (Number × Number) := do
  a.expectAtMost operation 2 []
  let left ← a.number operation 0 ["lhs"]
  let right ← a.number operation 1 ["rhs"]
  return (left, right)

/-- The observation that an operation is asked about. -/
def observed (operation : String) (a : Arguments) : Except Cause Observation := do
  a.expectAtMost operation 2 []
  match ← a.required operation 0 "observation" with
  | .observation o => return o
  | other => throw (.notObservation operation other)

/-- The detection that an operation is asked about: the one at the given index, or the
first one. -/
def detected (operation : String) (a : Arguments) : Except Cause Detection := do
  let o ← observed operation a
  let index ← a.numberD operation 1 ["index"] 0
  match index.toNat? with
  | none => throw (.indexNotWhole operation index)
  | some k => match o.detections[k]? with
    | some d => return d
    | none => throw (.indexOutOfRange operation index o.detections.length)

/-- The answer of a builtin once what it prints is printed. -/
def answer (a : Arguments) : Builtin → Except Cause Value
  | print => .ok .nil
  | fail => .error (.failed (message a))
  | add => (operands "add" a).map fun (x, y) => .number (x.add y)
  | sub => (operands "sub" a).map fun (x, y) => .number (x.sub y)
  | count => (observed "count" a).map fun o => .number (.ofNat o.detections.length)
  | label => (detected "label" a).map fun d => .text d.label
  | position => (detected "position" a).map fun d => .number d.x
  | confidence => (detected "confidence" a).map fun d => .number d.confidence

/-- The line that a builtin prints, if it prints one. -/
def line? (a : Arguments) : Builtin → Option String
  | print => some (message a ++ "\n")
  | _ => none

/-- Runs a builtin against a sink. What cannot be printed in full is a failure. -/
def invoke (b : Builtin) (a : Arguments) (s : Sink) : Except Cause Value × Sink :=
  match b.line? a with
  | none => (b.answer a, s)
  | some line => match s.write line.toUTF8 with
    | (true, s) => (b.answer a, s)
    | (false, s) => (.error .sinkClosed, s)

/-- What a builtin does; nothing when there is none of the name. -/
def operation? (text : String) : Option (Arguments → Sink → Except Cause Value × Sink) :=
  (ofName? text).map invoke

end Builtin

end RobotBench
