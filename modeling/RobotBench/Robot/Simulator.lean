import RobotBench.Robot.Command
import RobotBench.Robot.Generator
import RobotBench.Table

/-!
# The simulated robot

A stand-in for the robot with just enough behaviour to drive a control script through a
short scenario: find a bottle, grasp it, drive to a person, drop it. Its physical state is
two flags; where a bottle is seen and what blocks the way is drawn at random; everything
else answers at once and changes nothing. It counts the calls of every operation.
-/

namespace RobotBench

/-- The physical state: an object is held, and an arrival waits to be reported. -/
structure Situation where
  grasped : Bool
  pendingArrival : Bool
  deriving DecidableEq

/-- The simulated robot: its situation, its source of chance and the calls so far. -/
structure Simulator where
  situation : Situation
  generator : Generator
  calls : Table Nat

namespace Simulator

/-- A robot at rest whose draws follow from the seed. -/
def ofSeed (seed : UInt64) : Simulator := ⟨⟨false, false⟩, ⟨seed⟩, .empty⟩

/-- A detection of the only size and height there is. -/
def detection (label : String) (x : Number) : Detection :=
  ⟨label, x, 480, 10, 10, .ofUnits false (9 * Number.unitsPerOne) 10⟩

/-- Where an object is seen: at the left edge in one case of three, else in the centre. -/
def columns : Nat → Number
  | 0 => 0
  | _ => 375

/-- The report that a drive has ended: a person in the centre. -/
def arrival : Observation := .single (detection "person" 375)

/-- What blocks the robot when something does. -/
def blocked : Nat → Collision
  | 0 => .front
  | 1 => .left
  | _ => .right

/-- How often the way is free. -/
def freeChance : Number := .ofUnits false (7 * Number.unitsPerOne) 10

/-- The robot with one more call of the operation. -/
def record (operation : String) (s : Simulator) : Simulator :=
  { s with calls := s.calls.set operation ((s.calls.find? operation).getD 0 + 1) }

/-- What the camera sees, and the robot afterwards. A waiting arrival is reported first
and only once. -/
def detect (s : Simulator) : Observation × Simulator :=
  if s.situation.pendingArrival then
    (arrival, { s with situation.pendingArrival := false })
  else
    let column := s.generator.index 3
    let label := if s.situation.grasped then "person" else "bottle"
    (.single (detection label (columns column.1)), { s with generator := column.2 })

/-- What blocks the way, and the robot afterwards. -/
def collide (s : Simulator) : Collision × Simulator :=
  let chance := s.generator.unit
  if chance.1.below freeChance then (.free, { s with generator := chance.2 })
  else
    let side := chance.2.index 3
    (blocked side.1, { s with generator := side.2 })

/-- The answer of the simulated robot once the call is counted. -/
def respond : (c : Command) → Simulator → c.Answer × Simulator
  | .detectObjects, s => s.detect
  | .getPose, s => (.origin, s)
  | .getCollision, s => s.collide
  | .move _, s => ((), s)
  | .closeGripper, s => (true, { s with situation.grasped := true })
  | .drop, s => ((), { s with situation.grasped := false })
  | .goTo goal, s =>
    ((), if goal.frame = mapFrame then { s with situation.pendingArrival := true } else s)
  | .showFrame _, s => ((), s)
  | .waitKey _, s => (0, s)

/-- The answer of the simulated robot to a command. -/
def perform (c : Command) (s : Simulator) : c.Answer × Simulator :=
  respond c (s.record c.name)

/-- The simulated robot as a robot. -/
def robot : Robot Simulator := ⟨perform⟩

end Simulator

end RobotBench
