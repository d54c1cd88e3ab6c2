import RobotBench.Robot.Command
import RobotBench.Script.Arguments

/-!
# Robot operations of scripts

A call of a robot operation is turned into a command before the robot is touched:
`reader?` checks every argument, and `run` asks the robot only for a command that came out
of it. So a failing call has no effect on the robot.
-/

namespace RobotBench

namespace Binding

/-- The commands that take no arguments, in the order in which they are listed. -/
def bare : List Command :=
  [.detectObjects, .getPose, .getCollision, .move .stop, .move .moveForward,
    .move .moveLeft, .move .moveRight, .move .moveBackward, .move .pick, .move .armDown,
    .move .armUp, .move .openGripper, .closeGripper, .drop]

/-- The names of all robot operations. -/
def names : List String :=
  ["detect_objects", "get_pose", "get_collision_status", "stop", "move_forward", "move_left",
    "move_right", "move_backward", "pick", "arm_down", "arm_up", "open_gripper",
    "close_gripper", "drop", "go_to", "show_frame", "wait_key"]

/-- The call `go_to x y [z] [w] [frame]`; `frame_id` is another name for the frame. -/
def goTo (a : Arguments) : Except Cause Command := do
  a.expectAtMost "go_to" 5 ["x", "y", "z", "w", "frame", "frame_id"]
  let x ← a.number "go_to" 0 ["x"]
  let y ← a.number "go_to" 1 ["y"]
  let z ← a.numberD "go_to" 2 ["z"] 0
  let w ← a.numberD "go_to" 3 ["w"] 1
  let frame := ((a.get? 4 ["frame", "frame_id"]).map Value.render).getD mapFrame
  return .goTo ⟨x, y, z, w, frame⟩

/-- The call `show_frame [window] [frame]`; the second argument is ignored. -/
def showFrame (a : Arguments) : Except Cause Command := do
  a.expectAtMost "show_frame" 2 ["window", "frame"]
  return .showFrame (((a.get? 0 ["window"]).map Value.render).getD "")

/-- The call `wait_key [delay]`, with a finite delay that is cut to a whole number. -/
def waitKey (a : Arguments) : Except Cause Command := do
  a.expectAtMost "wait_key" 1 ["delay"]
  let delay ← a.numberD "wait_key" 0 ["delay"] 0
  if delay.isFinite then return .waitKey (.ofInt delay.truncate)
  else throw .delayNotFinite

/-- How the arguments of an operation make a command; nothing when there is no operation
of the name. -/
def reader? (name : String) : Option (Arguments → Except Cause Command) :=
  match bare.find? fun c => c.name = name with
  | some c => some fun a => (a.expectNone name).map fun _ => c
  | none =>
    if name = "go_to" then some goTo
    else if name = "show_frame" then some showFrame
    else if name = "wait_key" then some waitKey
    else none

/-- The answer to a command as a value; commands that answer nothing give nil. -/
def wrap : (c : Command) → c.Answer → Value
  | .detectObjects, o => .observation o
  | .getPose, p => .pose p
  | .getCollision, c => .collision c
  | .closeGripper, b => .bool b
  | .waitKey _, key => .number (.ofInt key.toInt)
  | .move _, _ => .nil
  | .drop, _ => .nil
  | .goTo _, _ => .nil
  | .showFrame _, _ => .nil

/-- Gives a robot the command that arguments make, if they make one. -/
def run {σ : Type} (robot : Robot σ) (read : Arguments → Except Cause Command)
    (a : Arguments) (s : σ) : Except Cause Value × σ :=
  match read a with
  | .error cause => (.error cause, s)
  | .ok c =>
    let (answer, s) := robot.perform c s
    (.ok (wrap c answer), s)

/-- What a robot operation does; nothing when there is none of the name. -/
def operation? {σ : Type} (robot : Robot σ) (name : String) :
    Option (Arguments → σ → Except Cause Value × σ) :=
  (reader? name).map (run robot)

end Binding

end RobotBench
