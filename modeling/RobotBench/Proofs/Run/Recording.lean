import RobotBench.Proofs.Run.Projection

/-!
# Recorded runs

A recorded robot keeps the commands that it is given. `recorded_run` says that scripts do
not notice: a run on a recorded robot is the run on the robot itself, and the record beside
it. So what holds of the commands of recorded runs is a fact about every run. The reason is
the same for every robot with more state than another one: `Bench.robot_projects`.
-/

namespace RobotBench

/-! ## Robots with more than their state -/

section

variable {σ σ' : Type} {part : σ' → σ} {robot' : Robot σ'} {robot : Robot σ}

/-- The first robot does to a part of its state what the second one does. -/
def Robot.Projects (part : σ' → σ) (robot' : Robot σ') (robot : Robot σ) : Prop :=
  ∀ c s, robot.perform c (part s) = ((robot'.perform c s).1, part (robot'.perform c s).2)

/-- The bench with a part of the robot's state only. -/
def Bench.withRobot (part : σ' → σ) (bench : Bench σ') : Bench σ :=
  ⟨part bench.robot, bench.sink⟩

theorem Binding.run_projects (h : Robot.Projects part robot' robot)
    (read : Arguments → Except Cause Command) (a : Arguments) (s : σ') :
    Binding.run robot read a (part s) =
      ((Binding.run robot' read a s).1, part (Binding.run robot' read a s).2) := by
  unfold Binding.run
  cases read a with
  | error cause => rfl
  | ok c => simp only [h c s]

/-- Benches are related as their robots are. -/
theorem Bench.robot_projects (h : Robot.Projects part robot' robot) :
    (Bench.host robot').Projects (Bench.withRobot part) (Bench.host robot) where
  watch _ _ := rfl
  operation? name := by
    show (Bench.operation? robot' name).isSome = (Bench.operation? robot name).isSome
    unfold Bench.operation?
    split
    · rfl
    · simp [Binding.operation?]
  operation {name act' act} hact' hact arguments bench := by
    simp only [host, Bench.operation?] at hact' hact
    split at hact'
    · rename_i invoke hbuiltin
      rw [hbuiltin] at hact
      cases hact'
      cases hact
      rfl
    · rename_i hbuiltin
      simp only [hbuiltin, Binding.operation?] at hact hact'
      cases hread : Binding.reader? name with
      | none =>
          rw [hread] at hact
          cases hact
      | some read =>
          rw [hread] at hact hact'
          cases hact
          cases hact'
          simp only [Bench.onRobot, Bench.withRobot, Binding.run_projects h]

end

/-! ## Recorded robots -/

variable {σ : Type}

/-- The robot, which also keeps the commands given to it in their order. -/
def Robot.recorded (robot : Robot σ) : Robot (σ × List Command) :=
  ⟨fun c s => ((robot.perform c s.1).1, (robot.perform c s.1).2, s.2 ++ [c])⟩

/-- The commands that the robot of a recorded bench was given. -/
def Bench.commands (bench : Bench (σ × List Command)) : List Command := bench.robot.2

/-- The bench without the record. -/
def Bench.unrecorded (bench : Bench (σ × List Command)) : Bench σ := ⟨bench.robot.1, bench.sink⟩

/-- The machine without the record. -/
def Machine.unrecorded (m : Machine (Bench (σ × List Command))) : Machine (Bench σ) :=
  ⟨m.world.unrecorded, m.names, m.steps⟩

/-- The first execution is the second one with a record. -/
def Records {α : Type} (x : Exec (Bench (σ × List Command)) α) (y : Exec (Bench σ) α) : Prop :=
  ∀ m, y m.unrecorded = ((x m).1, (x m).2.unrecorded)

/-- A recorded bench is a bench with a record. -/
theorem Bench.projects (robot : Robot σ) :
    (Bench.host robot.recorded).Projects Bench.unrecorded (Bench.host robot) :=
  Bench.robot_projects fun _ _ => rfl

/-- The parts of a recorded run are those of the run, with a record. -/
theorem recording_simulation (robot : Robot σ) (maxSteps : Option Nat) :
    Simulation (Bench.setting robot.recorded maxSteps) (Bench.setting robot maxSteps)
      (fun _ => True) Records :=
  projection_simulation (Bench.projects robot) maxSteps Bench.endlessRounds

/-- A recorded run is the run, with the commands beside it. -/
theorem recorded_run (robot : Robot σ) (maxSteps : Option Nat) (script : Script)
    (m : Machine (Bench (σ × List Command))) :
    script.run (Bench.setting robot maxSteps) m.unrecorded =
      ((script.run (Bench.setting robot.recorded maxSteps) m).1,
        (script.run (Bench.setting robot.recorded maxSteps) m).2.unrecorded) :=
  (recording_simulation robot maxSteps).script script (fun _ _ _ _ _ => trivial) m

end RobotBench
