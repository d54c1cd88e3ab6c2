import RobotBench.Robot.Percept

/-!
# Commands and robots

A command is one operation of the robot with its parameters, and the command decides the
type of its answer. A robot with states in `σ` is anything that answers every command, so
scripts can be run against simulated, scripted and recording robots alike.
-/

namespace RobotBench

/-- The commands that only move the robot and answer nothing. -/
inductive Motion where
  | stop
  | moveForward
  | moveLeft
  | moveRight
  | moveBackward
  | pick
  | armDown
  | armUp
  | openGripper
  deriving DecidableEq

/-- Where to drive: a position and an orientation in a named frame. -/
structure Goal where
  x : Number
  y : Number
  z : Number
  w : Number
  frame : String
  deriving DecidableEq

/-- One operation of the robot. -/
inductive Command where
  | detectObjects
  | getPose
  | getCollision
  | move (motion : Motion)
  | closeGripper
  | drop
  | goTo (goal : Goal)
  | showFrame (window : String)
  | waitKey (delay : Int64)
  deriving DecidableEq

/-- The name of a motion in scripts. -/
def Motion.name : Motion → String
  | .stop => "stop"
  | .moveForward => "move_forward"
  | .moveLeft => "move_left"
  | .moveRight => "move_right"
  | .moveBackward => "move_backward"
  | .pick => "pick"
  | .armDown => "arm_down"
  | .armUp => "arm_up"
  | .openGripper => "open_gripper"

namespace Command

/-- The name of a command in scripts. -/
def name : Command → String
  | detectObjects => "detect_objects"
  | getPose => "get_pose"
  | getCollision => "get_collision_status"
  | move motion => motion.name
  | closeGripper => "close_gripper"
  | drop => "drop"
  | goTo _ => "go_to"
  | showFrame _ => "show_frame"
  | waitKey _ => "wait_key"

/-- The type of the answer to a command. -/
@[reducible] def Answer : Command → Type
  | detectObjects => Observation
  | getPose => Pose
  | getCollision => Collision
  | closeGripper => Bool
  | waitKey _ => Int64
  | _ => Unit

end Command

/-- The frame in which a goal leads to an arrival. -/
def mapFrame : String := "map"

/-- A robot: an answer to every command in every state, and the state afterwards. -/
structure Robot (σ : Type) where
  perform : (c : Command) → σ → c.Answer × σ

end RobotBench
