import RobotBench.Number.Layout

/-!
# What the sensors report

Detections with their observation, poses and collision readings, each with the text that
scripts see.
-/

namespace RobotBench

/-- A labelled box in the camera frame. -/
structure Detection where
  label : String
  x : Number
  y : Number
  width : Number
  height : Number
  confidence : Number
  deriving DecidableEq

/-- The detections of one camera frame, in order, and a note that goes with them. -/
structure Observation where
  detections : List Detection
  metadata : String
  deriving DecidableEq

/-- A position and an orientation quaternion. -/
structure Pose where
  x : Number
  y : Number
  z : Number
  qx : Number
  qy : Number
  qz : Number
  qw : Number
  deriving DecidableEq

/-- Which side of the robot is blocked, if any. -/
inductive Collision where
  | free
  | front
  | left
  | right
  deriving DecidableEq

/-- Texts in parentheses, separated by commas. -/
def tuple (parts : List String) : String := "(" ++ ", ".intercalate parts ++ ")"

/-- The text of a detection: all its fields. -/
def Detection.text (d : Detection) : String :=
  tuple [d.label, d.x.plain, d.y.plain, d.width.plain, d.height.plain, d.confidence.plain]

/-- The text of an observation: its detections, without the note. -/
def Observation.text (o : Observation) : String :=
  "[" ++ ", ".intercalate (o.detections.map Detection.text) ++ "]"

/-- The observation of a single detection. -/
def Observation.single (d : Detection) : Observation := ⟨[d], ""⟩

/-- The text of a pose: position, then orientation. -/
def Pose.text (p : Pose) : String :=
  tuple [tuple [p.x.plain, p.y.plain, p.z.plain],
    tuple [p.qx.plain, p.qy.plain, p.qz.plain, p.qw.plain]]

/-- The pose at the origin. -/
def Pose.origin : Pose := ⟨0, 0, 0, 0, 0, 0, 0⟩

/-- The text of a collision reading. -/
def Collision.text : Collision → String
  | .free => "free"
  | .front => "front"
  | .left => "left"
  | .right => "right"

end RobotBench
