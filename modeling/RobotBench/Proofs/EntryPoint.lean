import RobotBench.Proofs.Run.Recording
import RobotBench.Proofs.Run.Sequence
import RobotBench.Proofs.Run.StepLimit
import RobotBench.Proofs.Script.AddedLine
import RobotBench.Trial

/-!
# Entry points

An entry point is a call appended to the payload: `entry_point_is_call`. The trial enters the
procedure by its name, and the call of a line finds out what the name stands for; where it stands
for a procedure, both enter the same body, and they differ by the step of the line and by its
place on the path to a fault. A name that stands for no procedure is refused as an entry point,
also if it is an operation.
-/

namespace RobotBench

/-- A failed trial seen from one step further out. -/
def TrialFault.under (frame : Frame) : TrialFault → TrialFault
  | .faulted fault => .faulted (fault.under frame)
  | other => other

/-- Reads a payload and runs it with its entry point, where names may have been bound before. -/
def Trial.execute {σ : Type} (setting : Setting (Bench σ)) (entryPoint : Option String)
    (payload : Payload) (m : Machine (Bench σ)) : Except TrialFault Unit × Machine (Bench σ) :=
  match Script.ofText payload.text payload.firstLine with
  | .error fault => (.error (.unreadable fault), m)
  | .ok script =>
    let (result, m) := Trial.runScript setting script entryPoint m
    (result.mapError .ofHalt, m)

/-- A trial executes its payload with no names bound. -/
theorem Trial.run_eq_execute {σ : Type} (robot : Robot σ) (maxSteps : Option Nat)
    (entryPoint : Option String) (payload : Payload) (bench : Bench σ) :
    Trial.run robot maxSteps entryPoint payload bench =
      Trial.execute (Bench.setting robot maxSteps) entryPoint payload ⟨bench, .empty, 0⟩ := rfl

section

variable {σ : Type} {setting : Setting (Bench σ)} {payload : Payload} {script : Script}
  {m m₁ : Machine (Bench σ)}

/-! ## The top level -/

theorem Trial.execute_none (hread : Script.ofText payload.text payload.firstLine = .ok script) :
    Trial.execute setting none payload m =
      ((script.run setting m).1.mapError .ofHalt, (script.run setting m).2) := by
  have hrun : Trial.runScript setting script none m = script.run setting m := by
    rw [Trial.runScript, Exec.bind_apply]
    rcases script.run setting m with ⟨_ | _, _⟩ <;> rfl
  rw [Trial.execute, hread]
  dsimp only
  rw [hrun]
  rfl

/-- A top level that succeeds is a script that ran to its end. -/
theorem Trial.execute_ok (h : (Trial.execute setting none payload m).1 = .ok ()) :
    ∃ script, Script.ofText payload.text payload.firstLine = .ok script ∧
      script.run setting m = (.ok (), (Trial.execute setting none payload m).2) := by
  cases hread : Script.ofText payload.text payload.firstLine with
  | error fault =>
      rw [Trial.execute, hread] at h
      cases h
  | ok script =>
      rw [Trial.execute_none hread] at h ⊢
      refine ⟨script, rfl, Prod.ext ?_ rfl⟩
      cases hrun : (script.run setting m).1 with
      | error halt =>
          rw [hrun] at h
          cases h
      | ok done => rfl

/-- After a top level that fails, no entry point is looked for. -/
theorem Trial.execute_failed {fault : TrialFault}
    (h : (Trial.execute setting none payload m).1 = .error fault) (entryPoint : Option String) :
    Trial.execute setting entryPoint payload m = Trial.execute setting none payload m := by
  cases hread : Script.ofText payload.text payload.firstLine with
  | error fault => rw [Trial.execute, Trial.execute, hread]
  | ok script =>
      rw [Trial.execute_none hread] at h
      cases hrun : script.run setting m with
      | mk result m₁ =>
          rw [hrun] at h
          cases result with
          | ok done => cases h
          | error halt =>
              have hstop (entryPoint : Option String) :
                  Trial.runScript setting script entryPoint m = (.error halt, m₁) :=
                Exec.bind_error hrun
              rw [Trial.execute, Trial.execute, hread]
              dsimp only
              rw [hstop, hstop]

/-! ## The entry point -/

theorem Trial.execute_entry (hread : Script.ofText payload.text payload.firstLine = .ok script)
    (hrun : script.run setting m = (.ok (), m₁)) (name : String) :
    Trial.execute setting (some name) payload m =
      ((callProcedure setting name m₁).1.map (fun _ => ()) |>.mapError .ofHalt,
        (callProcedure setting name m₁).2) := by
  have hentry : Trial.runScript setting script (some name) m =
      ((callProcedure setting name m₁).1.map fun _ => (), (callProcedure setting name m₁).2) := by
    rw [Trial.runScript, Exec.bind_ok hrun, Exec.bind_apply]
    rcases callProcedure setting name m₁ with ⟨_ | _, _⟩ <;> rfl
  rw [Trial.execute, hread]
  dsimp only
  rw [hentry]

theorem call_procedure_found {body : List Node} {name : String}
    (h : m.names.procedures.find? name = some body) :
    callProcedure setting name m = enter setting maxCallDepth name body m := by
  rw [callProcedure, Exec.bind_ok (Exec.get_apply m), h]

theorem call_procedure_missing {name : String} (h : m.names.procedures.find? name = none) :
    callProcedure setting name m = (.error (.fault ⟨[], .undefinedProcedure name⟩), m) := by
  rw [callProcedure, Exec.bind_ok (Exec.get_apply m), h]
  rfl

/-- A line that calls a procedure enters it, after a step and below the line. -/
theorem call_line_run {host : Host (Bench σ)} {rounds line : Nat} {name : String}
    {body : List Node} (hhost : ∀ event world, host.watch event world = world)
    (h : m.names.procedures.find? name = some body) :
    let setting : Setting (Bench σ) := ⟨host, none, rounds⟩
    let entered := enter setting maxCallDepth name body m
    Script.run setting [.mk line (.call ⟨name, []⟩)] m =
      ((entered.1.map fun _ => ()).mapError (·.under (.line line)), entered.2.later 1) := by
  intro setting entered
  have hcall : Call.run setting (enter setting maxCallDepth) ⟨name, []⟩ (m.later 1) =
      (entered.1, entered.2.later 1) := by
    -- the name is looked up in the names that the step has left alone
    have hfind : (m.later 1).names.procedures.find? name = some body := h
    rw [call_run_apply]
    show callNamed setting (enter setting maxCallDepth) name .none (m.later 1) = _
    rw [call_named_procedure setting _ hfind]
    exact (CountsOn.simulation host rounds).enter maxCallDepth name body trivial m
  have hnode : (Node.mk line (.call ⟨name, []⟩)).run setting (enter setting maxCallDepth) m =
      ((entered.1.map fun _ => Flow.next).mapError (·.under (.line line)),
        entered.2.later 1) := by
    show Exec.under (.line line) (countStep setting >>= fun _ =>
      Call.run setting (enter setting maxCallDepth) ⟨name, []⟩ >>= fun _ =>
        pure Flow.next) m = _
    rw [Exec.under_apply, Exec.bind_ok (count_step_unwatched hhost rounds m), Exec.bind_apply,
      hcall]
    cases entered.1 <;> rfl
  rw [Script.run, run_body_unwatched hhost, runNodes, Exec.bind_apply, Exec.bind_apply, hnode]
  cases entered.1 <;> rfl

end

/-- An entry point is a call appended to the payload. Whatever the payload, the robot, the sink
and the names, let there be no limit on steps and let the name of the entry point be none of the
keywords. After a top level that succeeds and leaves a procedure of this name, the trial with the
entry point ends as the trial without one ends when the payload has another line with the name:
it has the same result, and the same robot, commands, output and names, but for the step of the
line and for the line on the path of a fault. After a top level that succeeds and leaves no
procedure of the name, it fails, whatever else has the name, and nothing more is done. After one
that fails it is the trial without an entry point. -/
theorem entry_point_is_call {name : String} (hname : isIdentifier name)
    (hword : name ∉ keywords) {σ : Type} (robot : Robot σ) (rounds : Nat) (payload : Payload)
    (m : Machine (Bench (σ × List Command))) :
    let setting : Setting (Bench (σ × List Command)) := ⟨Bench.host robot.recorded, none, rounds⟩
    let plain := Trial.execute setting none payload m
    let entered := Trial.execute setting (some name) payload m
    let appended := Trial.execute setting none (payload.withLine name) m
    (plain.1 = .ok () → (plain.2.names.procedures.find? name).isSome →
      appended =
        (entered.1.mapError (.under (.line (payload.firstLine + payload.lineCount))),
          entered.2.later 1)) ∧
    (plain.1 = .ok () → plain.2.names.procedures.find? name = none →
      ∃ fault, entered = (.error fault, plain.2) ∧
        fault.messages = ["payload defines no `" ++ name ++ "`"]) ∧
    ∀ fault, plain.1 = .error fault → entered = plain := by
  intro setting plain entered appended
  refine ⟨fun hok hdefined => ?_, fun hok hmissing => ?_, fun fault hfailed => ?_⟩
  · obtain ⟨script, hread, hrun⟩ := Trial.execute_ok hok
    obtain ⟨body, hbody⟩ := Option.isSome_iff_exists.1 hdefined
    have hentered : entered = _ := Trial.execute_entry hread hrun name
    rw [call_procedure_found hbody] at hentered
    have hlonger := Payload.of_text_with_line hname hword hread
    have happended : appended = _ := Trial.execute_none hlonger
    rw [Script.run_append (fun _ _ => rfl), Exec.bind_ok hrun,
      call_line_run (fun _ _ => rfl) hbody] at happended
    show appended = (entered.1.mapError _, entered.2.later 1)
    rw [hentered, happended]
    rcases enter setting maxCallDepth name body plain.2 with ⟨halt | value, m₁⟩
    · cases halt <;> rfl
    · rfl
  · obtain ⟨script, hread, hrun⟩ := Trial.execute_ok hok
    have hentered : entered = _ := Trial.execute_entry hread hrun name
    rw [call_procedure_missing hmissing] at hentered
    exact ⟨_, hentered, rfl⟩
  · exact Trial.execute_failed hfailed _

/-- A payload without a line feed at its end whose procedure is called by an entry point and by a
line, and one operation that is no entry point. -/
theorem entry_point_is_call_stop :
    let payload : Payload := ⟨none, 1, "def f\nstop\nend"⟩
    let run (entryPoint : Option String) (payload : Payload) :=
      Trial.run Robot.idle.recorded none entryPoint payload ⟨((), []), .unbounded⟩
    (payload.withLine "f").text = "def f\nstop\nend\nf\n" ∧
      (run (some "f") payload).1 = .ok () ∧ (run (some "f") payload).2.steps = 2 ∧
      (run none (payload.withLine "f")).1 = .ok () ∧
      (run none (payload.withLine "f")).2.world.commands = [.move .stop] ∧
      (run none (payload.withLine "f")).2.steps = 3 ∧
      ∃ fault, run (some "print") payload = (.error fault, (run none payload).2) ∧
        fault.messages = ["payload defines no `print`"] := by
  intro payload run
  let script : Script := [.mk 1 (.define "f" [.mk 2 (.call ⟨"stop", []⟩)])]
  let setting : Setting (Bench (Unit × List Command)) := Bench.setting Robot.idle.recorded none
  let start : Machine (Bench (Unit × List Command)) := ⟨⟨((), []), .unbounded⟩, .empty, 0⟩
  have hread : Script.ofText payload.text payload.firstLine = .ok script := by
    show Script.ofText "def f\nstop\nend" 1 = .ok script
    rfl
  have hrun : script.run setting start = (.ok (), (script.run setting start).2) := rfl
  have hexecute (entryPoint : Option String) (payload : Payload) :
      run entryPoint payload = Trial.execute setting entryPoint payload start :=
    Trial.run_eq_execute _ _ _ _ _
  have hplain : Trial.execute setting none payload start =
      (.ok (), (script.run setting start).2) := by
    rw [Trial.execute_none hread, hrun]
    rfl
  have hentered : Trial.execute setting (some "f") payload start =
      (.ok (), (callProcedure setting "f" (script.run setting start).2).2) := by
    rw [Trial.execute_entry hread hrun]
    rfl
  have hname : isIdentifier "f" := rfl
  have hprinter : isIdentifier "print" := rfl
  obtain ⟨hcall, -, -⟩ := entry_point_is_call hname (by decide) Robot.idle
    Bench.endlessRounds payload start
  obtain ⟨-, hprint, -⟩ := entry_point_is_call hprinter (by decide) Robot.idle
    Bench.endlessRounds payload start
  have hok : (Trial.execute setting none payload start).1 = .ok () := by rw [hplain]
  have hdefined :
      ((Trial.execute setting none payload start).2.names.procedures.find? "f").isSome := by
    rw [hplain]
    rfl
  have hmissing :
      (Trial.execute setting none payload start).2.names.procedures.find? "print" = none := by
    rw [hplain]
    rfl
  have happended : Trial.execute setting none (payload.withLine "f") start =
      ((Trial.execute setting (some "f") payload start).1.mapError _,
        (Trial.execute setting (some "f") payload start).2.later 1) := hcall hok hdefined
  rw [hentered] at happended
  rw [hexecute, hexecute, hexecute, hexecute, happended, hentered]
  exact ⟨by decide +kernel, rfl, rfl, rfl, rfl, rfl, hprint hok hmissing⟩

end RobotBench
