import RobotBench.Script.Fault
import RobotBench.Table

/-!
# Arguments of a call

The evaluated arguments of one call: those without a key in order, and those with a key by
name. An argument is looked up by its keys first and by its position after that.
-/

namespace RobotBench

/-- Evaluated arguments. -/
structure Arguments where
  positional : List Value
  keyword : Table Value

namespace Arguments

/-- No arguments. -/
def none : Arguments := ⟨[], .empty⟩

/-- The call was made without arguments. -/
def isEmpty (a : Arguments) : Bool := a.positional.isEmpty && a.keyword.entries.isEmpty

/-- The arguments with one more; a repeated key replaces the earlier value. -/
def push (a : Arguments) (key : Option String) (value : Value) : Arguments :=
  match key with
  | some key => { a with keyword := a.keyword.set key value }
  | .none => { a with positional := a.positional ++ [value] }

/-- Fails when there is any argument. -/
def expectNone (a : Arguments) (operation : String) : Except Cause Unit :=
  if a.isEmpty then .ok () else .error (.argument operation .takesNone)

/-- Fails when there are more than `most` arguments without a key, or else when a key is
not listed; the first such key in order is named. -/
def expectAtMost (a : Arguments) (operation : String) (most : Nat) (keys : List String) :
    Except Cause Unit :=
  if most < a.positional.length then
    .error (.argument operation (.tooMany most a.positional.length))
  else match a.keyword.names.find? fun key => !keys.contains key with
    | some key => .error (.argument operation (.unknownKey key))
    | .none => .ok ()

/-- The argument under the first key that is given, or else at the position. -/
def get? (a : Arguments) (position : Nat) (keys : List String) : Option Value :=
  (keys.findSome? a.keyword.find?).or a.positional[position]?

/-- The number given for an optional argument. -/
def number? (a : Arguments) (operation : String) (position : Nat) (keys : List String) :
    Except Cause (Option Number) :=
  match a.get? position keys with
  | .none => .ok .none
  | some value => match value.number? with
    | some x => .ok (some x)
    | .none => .error (.argument operation (.notNumber (keys.headD "") value))

/-- The number given for an optional argument, or its default. -/
def numberD (a : Arguments) (operation : String) (position : Nat) (keys : List String)
    (default : Number) : Except Cause Number :=
  (a.number? operation position keys).map (·.getD default)

/-- The number given for an argument that must be given. -/
def number (a : Arguments) (operation : String) (position : Nat) (keys : List String) :
    Except Cause Number := do
  match ← a.number? operation position keys with
  | some x => .ok x
  | .none => .error (.argument operation (.missing (keys.headD "")))

/-- An argument that must be given. -/
def required (a : Arguments) (operation : String) (position : Nat) (key : String) :
    Except Cause Value :=
  match a.get? position [key] with
  | some value => .ok value
  | .none => .error (.argument operation (.missing key))

end Arguments

end RobotBench
