import RobotBench.Robot.Simulator

/-!
# A robot with staged readings

A simulated robot in front of which readings can be staged: while readings of a kind are
left, the next one answers the matching command and the simulation is not asked; after
that the simulation answers. Every command is noted in order.
-/

namespace RobotBench

/-- Staged readings of each kind, the commands so far and the simulation behind them. -/
structure Staged where
  observations : List Observation
  poses : List Pose
  collisions : List Collision
  grips : List Bool
  keys : List Int64
  /-- The commands so far, latest first. -/
  history : List Command
  simulator : Simulator

namespace Staged

/-- The answer of the simulation behind the stage. -/
def delegate (c : Command) (s : Staged) : c.Answer × Staged :=
  let (answer, simulator) := s.simulator.perform c
  (answer, { s with simulator })

/-- The staged answer if one is left, else the simulated one. -/
def respond : (c : Command) → Staged → c.Answer × Staged
  | .detectObjects, s => match s.observations with
    | reading :: observations => (reading, { s with observations })
    | [] => s.delegate .detectObjects
  | .getPose, s => match s.poses with
    | reading :: poses => (reading, { s with poses })
    | [] => s.delegate .getPose
  | .getCollision, s => match s.collisions with
    | reading :: collisions => (reading, { s with collisions })
    | [] => s.delegate .getCollision
  | .closeGripper, s => match s.grips with
    | reading :: grips => (reading, { s with grips })
    | [] => s.delegate .closeGripper
  | .waitKey delay, s => match s.keys with
    | reading :: keys => (reading, { s with keys })
    | [] => s.delegate (.waitKey delay)
  | .move motion, s => s.delegate (.move motion)
  | .drop, s => s.delegate .drop
  | .goTo goal, s => s.delegate (.goTo goal)
  | .showFrame window, s => s.delegate (.showFrame window)

/-- Notes the command and answers it. -/
def perform (c : Command) (s : Staged) : c.Answer × Staged :=
  respond c { s with history := c :: s.history }

/-- The robot with staged readings as a robot. -/
def robot : Robot Staged := ⟨perform⟩

end Staged

end RobotBench
