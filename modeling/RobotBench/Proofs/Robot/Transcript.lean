import RobotBench.Proofs.Run.Causes
import RobotBench.Proofs.Run.Invariant
import RobotBench.Proofs.Run.Recording
import RobotBench.Trial

/-!
# Robots and what they are told

A robot comes to know of a run only through the commands that it is given. A transcript
keeps these with the answers. `transcribed_trial` says that a trial, whatever becomes of it,
leaves its robot as the commands in the transcript leave it when they are given one after
another, with the same answers.
-/

namespace RobotBench

variable {σ : Type}

/-! ## Commands in a row -/

/-- A command and the answer to it. -/
abbrev Exchange : Type := (c : Command) × c.Answer

namespace Robot

/-- The state of the robot after commands. -/
def after (robot : Robot σ) (s : σ) (commands : List Command) : σ :=
  commands.foldl (fun s c => (robot.perform c s).2) s

/-- Commands with the answers of the robot. -/
def transcript (robot : Robot σ) : σ → List Command → List Exchange
  | _, [] => []
  | s, c :: more => ⟨c, (robot.perform c s).1⟩ :: transcript robot (robot.perform c s).2 more

/-- The robot, which also keeps what it is told and what it answers. -/
def transcribed (robot : Robot σ) : Robot (σ × List Exchange) :=
  ⟨fun c s => ((robot.perform c s.1).1, (robot.perform c s.1).2,
    s.2 ++ [⟨c, (robot.perform c s.1).1⟩])⟩

variable (robot : Robot σ) (s : σ)

theorem after_append (first second : List Command) :
    robot.after s (first ++ second) = robot.after (robot.after s first) second :=
  List.foldl_append

theorem transcript_append (first second : List Command) :
    robot.transcript s (first ++ second) =
      robot.transcript s first ++ robot.transcript (robot.after s first) second := by
  induction first generalizing s with
  | nil => rfl
  | cons c more ih => exact congrArg (_ :: ·) (ih (robot.perform c s).2)

/-- The robot and its transcript are as commands leave them. -/
def Told (bench : Bench (σ × List Exchange)) : Prop :=
  ∃ commands, bench.robot = (robot.after s commands, robot.transcript s commands)

end Robot

/-! ## Transcribed runs -/

/-- Operations tell a transcribed robot at most one more command. -/
theorem Bench.told_kept (robot : Robot σ) (s : σ) :
    (Bench.host robot.transcribed).Keeps (robot.Told s) where
  watch h := h
  operation {name act} hact arguments bench h := by
    obtain ⟨commands, hbench⟩ := h
    rcases Bench.operation_cases hact with ⟨b, -, rfl⟩ | ⟨read, _, rfl⟩
    · exact ⟨commands, hbench⟩
    · simp only [onRobot, Binding.run]
      cases read arguments with
      | error cause => exact ⟨commands, hbench⟩
      | ok c =>
          refine ⟨commands ++ [c], ?_⟩
          rw [robot.after_append, robot.transcript_append]
          simp only [hbench]
          rfl

/-! ## Trials -/

/-- Runs of a script and of its entry point are related as their parts are. -/
theorem Simulation.run_script {σ' : Type} {setting : Setting (Bench σ)}
    {setting' : Setting (Bench σ')}
    {Rel : {α : Type} → Exec (Bench σ) α → Exec (Bench σ') α → Prop}
    (sim : Simulation setting setting' (fun _ => True) Rel) (script : Script)
    (entryPoint : Option String) :
    Rel (Trial.runScript setting script entryPoint)
      (Trial.runScript setting' script entryPoint) := by
  refine sim.bind (sim.script script fun _ _ _ _ _ => trivial) fun _ => ?_
  cases entryPoint with
  | none => exact sim.pure ()
  | some name => exact sim.bind (sim.call_procedure name) fun _ => sim.pure ()

/-- A trial keeps what its operations keep true of the bench. -/
theorem Trial.run_preserves {robot : Robot σ} {Inv : Bench σ → Prop}
    (h : (Bench.host robot).Keeps Inv) (maxSteps : Option Nat) (entryPoint : Option String)
    (payload : Payload) {bench : Bench σ} (hbench : Inv bench) :
    Inv (Trial.run robot maxSteps entryPoint payload bench).2.world := by
  have sim := invariant_simulation (Bench.setting robot maxSteps) h
  unfold Trial.run
  cases Script.ofText payload.text payload.firstLine with
  | error fault => exact hbench
  | ok script => exact sim.run_script script entryPoint ⟨bench, .empty, 0⟩ hbench

/-- A trial on a larger bench does to a part of it what a trial on that part does. -/
theorem Trial.run_projects {σ' : Type} {part : Bench σ' → Bench σ} {robot' : Robot σ'}
    {robot : Robot σ} (h : (Bench.host robot').Projects part (Bench.host robot))
    (maxSteps : Option Nat) (entryPoint : Option String) (payload : Payload)
    (bench : Bench σ') :
    Trial.run robot maxSteps entryPoint payload (part bench) =
      ((Trial.run robot' maxSteps entryPoint payload bench).1,
        (Trial.run robot' maxSteps entryPoint payload bench).2.project part) := by
  have sim := projection_simulation h maxSteps Bench.endlessRounds
  unfold Trial.run
  cases Script.ofText payload.text payload.firstLine with
  | error fault => rfl
  | ok script =>
      exact congrArg (fun run => (run.1.mapError TrialFault.ofHalt, run.2))
        (sim.run_script script entryPoint ⟨bench, .empty, 0⟩)

/-- A trial is a trial with a transcript, and its robot was told what is in there. -/
theorem transcribed_trial (robot : Robot σ) (maxSteps : Option Nat) (entryPoint : Option String)
    (payload : Payload) (s : σ) (sink : Sink) :
    let run := Trial.run robot.transcribed maxSteps entryPoint payload ⟨(s, []), sink⟩
    Trial.run robot maxSteps entryPoint payload ⟨s, sink⟩ =
        (run.1, run.2.project (Bench.withRobot Prod.fst)) ∧
      robot.Told s run.2.world := by
  intro run
  have hpart : Robot.Projects Prod.fst robot.transcribed robot := fun _ _ => rfl
  constructor
  · exact Trial.run_projects (Bench.robot_projects hpart) maxSteps entryPoint payload
      ⟨(s, []), sink⟩
  · exact Trial.run_preserves (Bench.told_kept robot s) maxSteps entryPoint payload ⟨[], rfl⟩

end RobotBench
