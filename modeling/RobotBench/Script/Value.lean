import RobotBench.Number.Literal
import RobotBench.Robot.Percept

/-!
# Values of scripts

A value is nothing, a truth value, a number, a text, or what a sensor reported. Equality in
scripts is loose: two values with a numeric view are compared as numbers, any other two by
their texts, so that a collision reading equals the word for it.
-/

namespace RobotBench

/-- What a script computes with. -/
inductive Value where
  | nil
  | bool (b : Bool)
  | number (x : Number)
  | text (s : String)
  | observation (o : Observation)
  | pose (p : Pose)
  | collision (c : Collision)
  deriving DecidableEq

namespace Value

instance : Inhabited Value := ⟨nil⟩

/-- The name of a value's kind in messages. -/
def kind : Value → String
  | nil => "nil"
  | bool _ => "bool"
  | number _ => "number"
  | text _ => "text"
  | observation _ => "observation"
  | pose _ => "pose"
  | collision _ => "collision"

/-- What counts as true: numbers other than zero, texts and observations that are not
empty, every pose, and a collision reading while something is in the way. -/
def isTruthy : Value → Bool
  | nil => false
  | bool b => b
  | number x => !x.equals 0
  | text s => s ≠ ""
  | observation o => o.detections ≠ []
  | pose _ => true
  | collision c => c ≠ .free

/-- The numeric view of a value: a number, or a text that is a decimal literal. -/
def number? : Value → Option Number
  | number x => some x
  | text s => readNumber? s
  | _ => none

/-- The text of a value as scripts print it. -/
def render : Value → String
  | nil => "nil"
  | bool b => if b then "true" else "false"
  | number x => x.plain
  | text s => s
  | observation o => o.text
  | pose p => p.text
  | collision c => c.text

/-- Equality in scripts: of numbers when both sides have a numeric view, else of texts. -/
def looselyEquals (a b : Value) : Bool :=
  match a.number?, b.number? with
  | some x, some y => x.equals y
  | _, _ => a.render = b.render

end Value

end RobotBench
