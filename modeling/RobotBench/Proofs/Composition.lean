import RobotBench.Proofs.Run.Invariant
import RobotBench.Proofs.Run.Recording
import RobotBench.Proofs.Run.Sequence
import RobotBench.Proofs.Script.Joining
import RobotBench.Robot.Simulator

/-!
# Programs compose

A text that ends with a line and is a script may be followed by any other text:
`programs_compose` says that the two are read as on their own, one after the other, and that
without a limit on steps the run of both is the run of the first and then, if that did not
fail, a fresh run of the second on what the first left behind. A fresh run has no commands
recorded and nothing printed; `Bench.after` puts back what the first run recorded and printed,
and no run notices.
-/

namespace RobotBench

/-! ## Fresh sinks -/

namespace Sink

/-- What is printed fits into the capacity. -/
def Fits (s : Sink) : Prop := ∀ capacity, s.capacity = some capacity → s.bytes.size ≤ capacity

/-- An empty sink with the room that is left in a sink. -/
def rest (s : Sink) : Sink := ⟨s.capacity.map (· - s.bytes.size), .empty⟩

/-- The sink with bytes printed before. -/
def after (printed : ByteArray) (s : Sink) : Sink :=
  ⟨s.capacity.map (printed.size + ·), printed ++ s.bytes⟩

/-- A sink is what was printed to it, with the rest after that. -/
theorem Fits.after_rest {s : Sink} (h : s.Fits) : s.rest.after s.bytes = s := by
  obtain ⟨capacity, bytes⟩ := s
  cases capacity with
  | none => simp [rest, after]
  | some capacity =>
      have hfits : bytes.size ≤ capacity := h capacity rfl
      simp [rest, after, hfits]

/-- Writing is the same after bytes printed before. -/
theorem write_after (printed bytes : ByteArray) (s : Sink) :
    (s.after printed).write bytes = ((s.write bytes).1, (s.write bytes).2.after printed) := by
  have hroom : (s.after printed).room bytes.size = s.room bytes.size := by
    obtain ⟨capacity, before⟩ := s
    cases capacity with
    | none => rfl
    | some capacity =>
        simp only [room, after, Option.map_some, ByteArray.size_append]
        omega
  simp only [write, hroom]
  split <;> simp [after, ByteArray.append_assoc]

/-- Writing keeps the capacity, and what is printed fits into it. -/
theorem Fits.write {s : Sink} (h : s.Fits) (bytes : ByteArray) :
    (s.write bytes).2.capacity = s.capacity ∧ (s.write bytes).2.Fits := by
  obtain ⟨capacity, before⟩ := s
  simp only [Sink.write]
  split
  · rename_i hall
    refine ⟨rfl, fun most hmost => ?_⟩
    cases hmost
    have hfits : before.size ≤ most := h most rfl
    simp only [room] at hall
    simp only [ByteArray.size_append]
    omega
  · refine ⟨rfl, fun most hmost => ?_⟩
    cases hmost
    have hfits : before.size ≤ most := h most rfl
    simp only [ByteArray.size_append, ByteArray.size_extract, room]
    omega

end Sink

theorem Builtin.invoke_after (printed : ByteArray) (b : Builtin) (a : Arguments) (s : Sink) :
    b.invoke a (s.after printed) = ((b.invoke a s).1, (b.invoke a s).2.after printed) := by
  unfold invoke
  cases b.line? a with
  | none => rfl
  | some line =>
      simp only [Sink.write_after]
      rcases s.write line.toUTF8 with ⟨all, s'⟩
      cases all <;> rfl

theorem Builtin.fits_invoke (b : Builtin) (a : Arguments) {s : Sink} (h : s.Fits) :
    (b.invoke a s).2.capacity = s.capacity ∧ (b.invoke a s).2.Fits := by
  unfold invoke
  cases b.line? a with
  | none => exact ⟨rfl, h⟩
  | some line =>
      have hwrite := h.write line.toUTF8
      dsimp only
      revert hwrite
      rcases s.write line.toUTF8 with ⟨all, s'⟩
      cases all <;> exact id

/-! ## Fresh benches -/

section

variable {σ : Type}

/-- The bench with commands recorded and bytes printed before. -/
def Bench.after (commands : List Command) (printed : ByteArray)
    (bench : Bench (σ × List Command)) : Bench (σ × List Command) :=
  ⟨(bench.robot.1, commands ++ bench.robot.2), bench.sink.after printed⟩

/-- Operations do the same after what was recorded and printed before. -/
theorem Bench.after_projects (robot : Robot σ) (commands : List Command) (printed : ByteArray) :
    (Bench.host robot.recorded).Projects (Bench.after commands printed)
      (Bench.host robot.recorded) where
  watch _ _ := rfl
  operation? _ := rfl
  operation {name act' act} hact' hact arguments bench := by
    cases hact'.symm.trans hact
    rcases Bench.operation_cases hact with ⟨b, -, rfl⟩ | ⟨read, _, rfl⟩
    · simp only [onSink, after, Builtin.invoke_after]
    · simp only [onRobot, after, Binding.run]
      cases read arguments with
      | error cause => rfl
      | ok c => simp [Robot.recorded]

/-- What a bench prints fits into its sink, and the capacity of the sink stays. -/
theorem Bench.fits_kept (robot : Robot σ) (capacity : Option Nat) :
    (Bench.host robot).Keeps fun bench => bench.sink.capacity = capacity ∧ bench.sink.Fits where
  watch h := h
  operation {name act} hact arguments bench h := by
    rcases Bench.operation_cases hact with ⟨b, -, rfl⟩ | ⟨read, _, rfl⟩
    · obtain ⟨hcapacity, hfits⟩ := b.fits_invoke arguments h.2
      exact ⟨hcapacity.trans h.1, hfits⟩
    · exact h

/-- Without a limit, a run on what was left behind is a fresh run after it. -/
theorem fresh_run (robot : Robot σ) (script : Script) {m : Machine (Bench (σ × List Command))}
    (h : m.world.sink.Fits) :
    let fresh := script.run (Bench.setting robot.recorded none)
      ⟨⟨(m.world.robot.1, []), m.world.sink.rest⟩, m.names, 0⟩
    script.run (Bench.setting robot.recorded none) m =
      (fresh.1, ⟨fresh.2.world.after m.world.commands m.world.sink.bytes, fresh.2.names,
        m.steps + fresh.2.steps⟩) := by
  intro fresh
  let start : Machine (Bench (σ × List Command)) :=
    ⟨⟨(m.world.robot.1, []), m.world.sink.rest⟩, m.names, 0⟩
  have hworld := (projection_simulation
    (Bench.after_projects robot m.world.commands m.world.sink.bytes) none
    Bench.endlessRounds).script script (fun _ _ _ _ _ => trivial) start
  have hsteps := CountsOn.script (Bench.host robot.recorded) Bench.endlessRounds m.steps script
    (start.project (Bench.after m.world.commands m.world.sink.bytes))
  have hm : m = (start.project (Bench.after m.world.commands m.world.sink.bytes)).later
      m.steps := by
    simp only [Machine.project, Machine.later, start, Bench.after, h.after_rest, Bench.commands,
      List.append_nil, Nat.add_zero]
  conv_lhs => rw [hm]
  exact hsteps.trans (by rw [hworld]; rfl)

end

/-! ## Composition -/

/-- A text that is a script and ends with a line is followed by any other text: the two are a
script exactly if the second is one with its lines counted from where the first ends, the
nodes of the first come before those of the second, and the faults are those of the second.
Without a limit on steps, what stops the first script stops both, and they have then done the
same. Otherwise the second goes on with the robot and the names that the first left behind:
its result is that of both, the commands and the output of both are those of one after those
of the other, and the steps are added. -/
theorem programs_compose (first : String) (firstLine : Nat) (script : Script)
    (hend : first = "" ∨ first.toList.getLast? = some '\n')
    (hread : Script.ofText first firstLine = .ok script) (second : String) :
    let secondLine := firstLine + (Text.lines first.toList).length
    Script.ofText (first ++ second) firstLine =
        (Script.ofText second secondLine).map (script ++ ·) ∧
      ∀ joined more, Script.ofText (first ++ second) firstLine = .ok joined →
        Script.ofText second secondLine = .ok more →
        ∀ {σ : Type} (robot : Robot σ) (state : σ) (capacity : Option Nat) (names : Namespace),
          let setting := Bench.setting robot.recorded none
          let one := script.run setting ⟨⟨(state, []), ⟨capacity, .empty⟩⟩, names, 0⟩
          let two := more.run setting
            ⟨⟨(one.2.world.robot.1, []), one.2.world.sink.rest⟩, one.2.names, 0⟩
          let both := joined.run setting ⟨⟨(state, []), ⟨capacity, .empty⟩⟩, names, 0⟩
          (∀ halt, one.1 = .error halt → both = one) ∧
            (one.1 = .ok () →
              both.1 = two.1 ∧ both.2.names = two.2.names ∧
                both.2.world.robot.1 = two.2.world.robot.1 ∧
                both.2.world.commands = one.2.world.commands ++ two.2.world.commands ∧
                both.2.world.sink =
                  ⟨capacity, one.2.world.sink.bytes ++ two.2.world.sink.bytes⟩ ∧
                both.2.steps = one.2.steps + two.2.steps) := by
  intro secondLine
  have hjoined := Script.of_text_append hend hread second
  refine ⟨hjoined, fun joined more hboth hmore σ robot state capacity names => ?_⟩
  intro setting one two both
  obtain rfl : joined = script ++ more := by
    rw [hjoined, hmore] at hboth
    exact (Except.ok.inj hboth).symm
  have hempty : (⟨capacity, .empty⟩ : Sink).Fits := fun _ _ => Nat.zero_le _
  -- what either run prints fits into the sink
  have hkept (whole : Script) := script_preserves setting
    (Bench.fits_kept robot.recorded capacity) whole
    ⟨⟨(state, []), ⟨capacity, .empty⟩⟩, names, 0⟩ ⟨rfl, hempty⟩
  have hrun : both = (script.run setting >>= fun _ => more.run setting) _ :=
    congrFun (Script.run_append (fun _ _ => rfl) script more) _
  refine ⟨fun halt hhalt => ?_, fun hok => ?_⟩
  · have hone : one = (.error halt, one.2) := Prod.ext hhalt rfl
    exact hrun.trans ((Exec.bind_error hone).trans hone.symm)
  · have hone : one = (.ok (), one.2) := Prod.ext hok rfl
    have hfresh : both = (two.1, ⟨two.2.world.after one.2.world.commands one.2.world.sink.bytes,
        two.2.names, one.2.steps + two.2.steps⟩) :=
      hrun.trans ((Exec.bind_ok hone).trans (fresh_run robot more (hkept script).2))
    -- `fresh_run` says the capacity by what the first program left of it; no run changes it
    have hcapacity : both.2.world.sink.capacity = capacity := (hkept (script ++ more)).1
    rw [hfresh] at hcapacity ⊢
    refine ⟨rfl, rfl, rfl, rfl, ?_, rfl⟩
    rw [← hcapacity]
    rfl

/-- A text that defines a procedure and calls it, and one that calls it again and fails. -/
theorem programs_compose_procedure :
    let script : Script := [.mk 3 (.define "f" [.mk 4 (.call ⟨"close_gripper", []⟩)]),
      .mk 6 (.call ⟨"f", []⟩)]
    let more : Script := [.mk 7 (.call ⟨"f", []⟩),
      .mk 8 (.call ⟨"fail", [⟨none, .word "now"⟩]⟩)]
    Script.ofText "def f\n  close_gripper\nend\nf\n" 3 = .ok script ∧
      Script.ofText ("def f\n  close_gripper\nend\nf\n" ++ "f\nfail now") 3 =
        .ok (script ++ more) ∧
      let setting := Bench.setting Simulator.robot.recorded none
      let one := script.run setting ⟨⟨(.ofSeed 1, []), ⟨none, .empty⟩⟩, .empty, 0⟩
      let two := more.run setting
        ⟨⟨(one.2.world.robot.1, []), one.2.world.sink.rest⟩, one.2.names, 0⟩
      let both := Script.run setting (script ++ more)
        ⟨⟨(.ofSeed 1, []), ⟨none, .empty⟩⟩, .empty, 0⟩
      one.1 = .ok () ∧ both.1 = two.1 ∧ both.2.names = two.2.names ∧
        both.2.world.robot.1 = two.2.world.robot.1 ∧
        both.2.world.commands = one.2.world.commands ++ two.2.world.commands ∧
        both.2.world.sink = ⟨none, one.2.world.sink.bytes ++ two.2.world.sink.bytes⟩ ∧
        both.2.steps = one.2.steps + two.2.steps := by
  intro script more
  have hend : "def f\n  close_gripper\nend\nf\n".toList.getLast? = some '\n' := rfl
  have hread : Script.ofText "def f\n  close_gripper\nend\nf\n" 3 = .ok script := rfl
  have hlines : (Text.lines "def f\n  close_gripper\nend\nf\n".toList).length = 4 := rfl
  have hmore : Script.ofText "f\nfail now" (3 + 4) = .ok more := rfl
  rw [← hlines] at hmore
  obtain ⟨hjoined, hrun⟩ := programs_compose _ 3 script (.inr hend) hread "f\nfail now"
  have hboth : Script.ofText ("def f\n  close_gripper\nend\nf\n" ++ "f\nfail now") 3 =
      .ok (script ++ more) :=
    hjoined.trans (congrArg (Except.map (script ++ ·)) hmore)
  exact ⟨hread, hboth, rfl, (hrun (script ++ more) more hboth hmore Simulator.robot (.ofSeed 1)
    none .empty).2 rfl⟩

end RobotBench
