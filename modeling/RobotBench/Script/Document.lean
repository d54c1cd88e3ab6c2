import RobotBench.Json.Basic
import RobotBench.Script.Value

/-!
# Values as JSON documents

Values without a tag: scalars as JSON scalars, what sensors report field by field.
-/

namespace RobotBench

/-- A detection as a document. -/
def Detection.document (d : Detection) : Json :=
  .object [("label", .text d.label), ("x", .number d.x), ("y", .number d.y),
    ("width", .number d.width), ("height", .number d.height),
    ("confidence", .number d.confidence)]

/-- An observation as a document. -/
def Observation.document (o : Observation) : Json :=
  .object [("detections", .array (o.detections.map Detection.document)),
    ("metadata", .text o.metadata)]

/-- A pose as a document. -/
def Pose.document (p : Pose) : Json :=
  .object [("position", .array [.number p.x, .number p.y, .number p.z]),
    ("orientation", .array [.number p.qx, .number p.qy, .number p.qz, .number p.qw])]

/-- A value as a document. -/
def Value.document : Value → Json
  | .nil => .null
  | .bool b => .bool b
  | .number x => .number x
  | .text s => .text s
  | .observation o => o.document
  | .pose p => p.document
  | .collision c => .text c.text

end RobotBench
