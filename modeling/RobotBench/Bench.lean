import RobotBench.Script.Binding
import RobotBench.Script.Builtin
import RobotBench.Script.Meaning

/-!
# The bench

A bench is a robot and a sink: the world on which scripts run. Its operations are the
builtins, which see only the sink, and the robot's operations, which see only the robot.
-/

namespace RobotBench

/-- A robot in some state and the sink that scripts print to. -/
structure Bench (σ : Type) where
  robot : σ
  sink : Sink

namespace Bench

variable {σ : Type}

/-- Lets an operation act on the sink alone. -/
def onSink (act : Arguments → Sink → Except Cause Value × Sink) (a : Arguments)
    (bench : Bench σ) : Except Cause Value × Bench σ :=
  let (result, sink) := act a bench.sink
  (result, { bench with sink })

/-- Lets an operation act on the robot alone. -/
def onRobot (act : Arguments → σ → Except Cause Value × σ) (a : Arguments)
    (bench : Bench σ) : Except Cause Value × Bench σ :=
  let (result, robot) := act a bench.robot
  (result, { bench with robot })

/-- The operations of a bench: builtins, and the operations of its robot. -/
def operation? (robot : Robot σ) (name : String) :
    Option (Arguments → Bench σ → Except Cause Value × Bench σ) :=
  match Builtin.operation? name with
  | some act => some (onSink act)
  | none => (Binding.operation? robot name).map onRobot

/-- A bench as the host of scripts. Nothing is watched. -/
def host (robot : Robot σ) : Host (Bench σ) := ⟨operation? robot, fun _ bench => bench⟩

/-- A loop that comes round more often than this counts as endless. A run with a limit on
its steps ends before that. -/
def endlessRounds : Nat := UInt64.size

/-- How scripts are run on a bench. -/
def setting (robot : Robot σ) (maxSteps : Option Nat) : Setting (Bench σ) :=
  ⟨host robot, maxSteps, endlessRounds⟩

end Bench

end RobotBench
