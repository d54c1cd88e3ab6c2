import RobotBench.Bench
import RobotBench.Payload
import RobotBench.Robot.Simulator
import RobotBench.Script.Parser

/-!
# Trials

A trial reads a payload as a script and runs it on a bench with no names bound, then calls
the entry point if there is one. Whatever happens, the bench and the names are left as they
were when the run ended.
-/

namespace RobotBench

/-- Why a trial fails. -/
inductive TrialFault where
  | unreadable (fault : ParseFault)
  | faulted (fault : Fault)
  | endless
  deriving DecidableEq

/-- The messages of a failed trial, outermost first. -/
def TrialFault.messages : TrialFault → List String
  | unreadable fault => "parse payload" :: fault.messages
  | faulted fault => fault.messages
  | endless => ["a loop did not end"]

/-- The fault of a trial that an execution stopped with. -/
def TrialFault.ofHalt : Halt → TrialFault
  | .fault fault => .faulted fault
  | .endless => .endless

namespace Trial

variable {σ : Type}

/-- Runs a script, and its entry point after that. -/
def runScript (setting : Setting (Bench σ)) (script : Script) (entryPoint : Option String) :
    Exec (Bench σ) Unit := do
  script.run setting
  match entryPoint with
  | none => return
  | some name =>
    let _ ← callProcedure setting name
    return

/-- Runs a payload on a bench. -/
def run (robot : Robot σ) (maxSteps : Option Nat) (entryPoint : Option String)
    (payload : Payload) (bench : Bench σ) : Except TrialFault Unit × Machine (Bench σ) :=
  let machine : Machine (Bench σ) := ⟨bench, .empty, 0⟩
  match Script.ofText payload.text payload.firstLine with
  | .error fault => (.error (.unreadable fault), machine)
  | .ok script =>
    let (result, machine) := runScript (Bench.setting robot maxSteps) script entryPoint machine
    (result.mapError .ofHalt, machine)

/-- Runs a payload on a fresh simulated robot with a sink that keeps everything. -/
def simulate (seed : UInt64) (maxSteps : Option UInt64) (entryPoint : Option String)
    (payload : Payload) : Except TrialFault Unit × Machine (Bench Simulator) :=
  run Simulator.robot (maxSteps.map UInt64.toNat) entryPoint payload
    ⟨.ofSeed seed, .unbounded⟩

end Trial

end RobotBench
