import Mathlib.Control.Monad.Basic
import RobotBench.Proofs.Composition
import RobotBench.Proofs.Run.Messages
import RobotBench.Proofs.Run.Points
import RobotBench.Proofs.Run.StepLimit
import RobotBench.Proofs.Text.Bytes

/-!
# A sink that closes cuts runs off

Two runs of the same script from the same state, of which the first prints to a sink that keeps so
many bytes and the second to one that keeps all. As long as the first sink takes all lines, the
runs do the same: `Unrefused`, which whole runs are in when their parts are. When it does not, the
first run has come to a statement that prints (`Statement.head_closes`). The second one comes to
the same point, and its output goes on from the line that is printed there.
-/

namespace RobotBench

/-! ## Sinks -/

namespace Sink

/-- The sink, with room for everything. -/
def lifted (s : Sink) : Sink := ⟨none, s.bytes⟩

theorem write_lifted (s : Sink) (bytes : ByteArray) :
    s.lifted.write bytes = (true, ⟨none, s.bytes ++ bytes⟩) :=
  if_pos rfl

theorem printed_write_lifted (s : Sink) (text : String) :
    (s.lifted.write text.toUTF8).2.printed = s.printed ++ Text.bytes text := by
  rw [write_lifted]
  simp [printed, Text.bytes]

/-- What a sink takes as a whole is the same with room for everything. -/
theorem write_taken {s : Sink} {bytes : ByteArray} (h : (s.write bytes).1 = true) :
    (s.write bytes).2.lifted = (s.lifted.write bytes).2 := by
  rw [write_lifted]
  unfold write at h ⊢
  dsimp only at h ⊢
  split
  · rfl
  · rename_i hnot
    rw [if_neg hnot] at h
    cases h

/-- A sink that does not take a whole line had no room for it, and keeps what there is room for. -/
theorem write_refused {s : Sink} {capacity : Nat} (hcapacity : s.capacity = some capacity)
    (hfits : s.Fits) {bytes : ByteArray} (h : (s.write bytes).1 = false) :
    capacity < s.printed.length + bytes.size ∧
      (s.write bytes).2.printed = (s.printed ++ bytes.data.toList).take capacity := by
  have hsize : s.printed.length = s.bytes.size := Array.length_toList
  have hbytes : bytes.data.toList.length = bytes.size := Array.length_toList
  have hroom : s.room bytes.size = min bytes.size (capacity - s.bytes.size) := by
    simp only [room, hcapacity]
  have hkept := hfits capacity hcapacity
  unfold write at h ⊢
  dsimp only at h ⊢
  split at h
  · cases h
  · rename_i hnot
    rw [if_neg hnot]
    have hshort : capacity < s.printed.length + bytes.size := by omega
    refine ⟨hshort, ?_⟩
    have hlast : s.room bytes.size = capacity - s.printed.length := by omega
    rw [List.take_append, List.take_of_length_le (hsize ▸ hkept), hlast]
    simp [printed]

end Sink

/-! ## Runs that are not refused -/

section

variable {σ : Type}

/-- The bench, with room for everything in its sink. -/
def Bench.lifted (bench : Bench σ) : Bench σ := ⟨bench.robot, bench.sink.lifted⟩

/-- The sink did not take a line. -/
def ClosesSink {α : Type} (result : Except Halt α) : Prop :=
  ∃ path, result = .error (.fault ⟨path, .sinkClosed⟩)

/-- Unless the sink does not take a line in the first execution, the second one does the same with
room for everything. -/
def Unrefused {α : Type} (x y : Exec (Bench σ) α) : Prop :=
  ∀ m, ¬ ClosesSink (x m).1 →
    y (m.project Bench.lifted) = ((x m).1, (x m).2.project Bench.lifted)

namespace Unrefused

variable {α β : Type} {x y : Exec (Bench σ) α}

theorem bind {f g : α → Exec (Bench σ) β} (hx : Unrefused x y)
    (hf : ∀ a, Unrefused (f a) (g a)) : Unrefused (x >>= f) (y >>= g) := by
  intro m hopen
  have hfirst := hx m
  rw [Exec.bind_apply] at hopen ⊢
  rw [Exec.bind_apply]
  rcases hrun : x m with ⟨halt | a, m₁⟩
  · rw [hrun] at hopen hfirst
    rw [hfirst fun ⟨path, hpath⟩ => hopen ⟨path, by cases hpath; rfl⟩]
  · rw [hrun] at hopen hfirst
    rw [hfirst nofun]
    exact hf a m₁ hopen

theorem under (frame : Frame) (h : Unrefused x y) :
    Unrefused (x.under frame) (y.under frame) := by
  intro m hopen
  have hbelow : ¬ ClosesSink (x m).1 := by
    rintro ⟨path, hpath⟩
    refine hopen ⟨frame :: path, ?_⟩
    rw [Exec.under_apply, hpath]
    rfl
  rw [Exec.under_apply, Exec.under_apply, h m hbelow]

theorem step (robot : Robot σ) (maxSteps : Option Nat) :
    Unrefused (countStep (Bench.setting robot maxSteps))
      (countStep (Bench.setting robot maxSteps)) := by
  intro m _
  rcases count_step_cases (Bench.setting robot maxSteps) m with
    ⟨hroom, hcount⟩ | ⟨limit, hlimit, hover, hcount⟩
  · rw [hcount]
    exact count_step_ok hroom
  · rw [hcount]
    exact count_step_over hlimit hover

/-- A builtin that the sink does not refuse does the same with room for everything. -/
theorem invoke (b : Builtin) (a : Arguments) (s : Sink)
    (h : (b.invoke a s).1 ≠ .error .sinkClosed) :
    b.invoke a s.lifted = ((b.invoke a s).1, (b.invoke a s).2.lifted) := by
  have htaken (line : String) := @Sink.write_taken s line.toUTF8
  unfold Builtin.invoke at h ⊢
  split
  · rfl
  · rename_i line hline
    rw [hline] at h
    have htaken := htaken line
    rw [Sink.write_lifted] at htaken ⊢
    dsimp only at h htaken ⊢
    rcases hwrite : s.write line.toUTF8 with ⟨all, after⟩
    rw [hwrite] at h htaken
    cases all with
    | true => rw [htaken rfl]
    | false => exact absurd rfl h

theorem operation {robot : Robot σ} {maxSteps : Option Nat} {name : String}
    {act : Arguments → Bench σ → Except Cause Value × Bench σ}
    (hact : (Bench.host robot).operation? name = some act) (a : Arguments) :
    Unrefused (runOperation (Bench.setting robot maxSteps) name act a)
      (runOperation (Bench.setting robot maxSteps) name act a) := by
  intro m hopen
  have hbelow : (act a m.world).1 ≠ .error .sinkClosed := by
    intro hclosed
    refine hopen ⟨[], ?_⟩
    rw [run_operation_apply]
    show Except.mapError _ (act a m.world).1 = _
    rw [hclosed]
    rfl
  have hact' : act a m.world.lifted = ((act a m.world).1, (act a m.world).2.lifted) := by
    rcases Bench.operation_cases hact with ⟨b, -, rfl⟩ | ⟨read, -, rfl⟩
    · have hinvoke := invoke b a m.world.sink hbelow
      simp only [Bench.onSink, Bench.lifted, hinvoke]
    · rfl
  rw [run_operation_apply, run_operation_apply]
  show ((act a m.world.lifted).1.mapError _, (⟨(act a m.world.lifted).2, _, _⟩ : Machine _)) = _
  rw [hact']
  rfl

end Unrefused

/-- The parts of a run that no sink refuses are those of the run with room for everything. -/
theorem unrefused_simulation (robot : Robot σ) (maxSteps : Option Nat) :
    Simulation (Bench.setting robot maxSteps) (Bench.setting robot maxSteps) (fun _ => True)
      Unrefused where
  pure _ _ _ := rfl
  bind hx hf := hx.bind hf
  fail _ _ _ := rfl
  under frame _ _ h := h.under frame
  block h := h
  procedure _ _ _ _ h := h
  names h m := h m (m.project Bench.lifted) rfl (fun _ _ _ => trivial) m
  assign _ _ _ _ := rfl
  define _ _ _ _ _ := rfl
  step := .step robot maxSteps
  operation? _ := rfl
  operation arguments hact hact' := by
    cases hact.symm.trans hact'
    exact .operation hact arguments
  whilst htest hbody := Exec.whilst_related (fun _ _ _ => rfl) (fun hx hf => hx.bind hf)
    (fun _ _ => rfl) htest hbody (.step robot maxSteps) Bench.endlessRounds
  nested _ _ _ _ _ _ := trivial

/-- What succeeds is carried over to benches with room for everything. -/
theorem unrefused_carries (robot : Robot σ) (maxSteps : Option Nat) :
    (Bench.setting robot maxSteps).Carries (Machine.project Bench.lifted) Unrefused where
  toSimulation := unrefused_simulation robot maxSteps
  carried {_ x} h m m' a hx := by
    have hsame := h m
    rw [hx] at hsame
    exact hsame nofun
  same_names _ := rfl
  watched _ _ := rfl

end

/-! ## Statements that print -/

/-- What the statement evaluates prints the line: it calls `print`, which no procedure is named,
with arguments that make the line. -/
structure Statement.Prints (s : Statement) (names : Namespace) (line : String) : Prop where
  calls : s.callee? = some Builtin.print.name
  builtin : names.procedures.find? Builtin.print.name = none
  message : ∃ given, gather names s.arguments .none = .ok given ∧
    Builtin.print.line? given = some line

section

variable {σ : Type} {robot : Robot σ} {maxSteps : Option Nat} {m : Machine (Bench σ)}
  {s : Statement} {line : String}

/-- The machine with the line printed, as far as the sink takes it. -/
def Machine.print (line : String) (m : Machine (Bench σ)) : Machine (Bench σ) :=
  { m with world := ⟨m.world.robot, (m.world.sink.write line.toUTF8).2⟩ }

namespace Statement.Prints

/-- What a statement that prints evaluates is a call of `print`. -/
theorem head_calls (h : s.Prints m.names line) (setting : Setting (Bench σ))
    (entry : Entry (Bench σ)) :
    (s.head setting entry).Calls setting entry ⟨Builtin.print.name, s.arguments⟩ m := by
  refine Statement.head_calls h.calls ?_
  simp [isCallable, Builtin.names, Builtin.name]

variable (robot maxSteps) in
theorem call_apply (h : s.Prints m.names line) (entry : Entry (Bench σ)) :
    (⟨Builtin.print.name, s.arguments⟩ : Call).run (Bench.setting robot maxSteps) entry m =
      (if (m.world.sink.write line.toUTF8).1 then .ok .nil
        else .error (.fault ⟨[], .sinkClosed⟩), m.print line) := by
  obtain ⟨given, hgiven, hline⟩ := h.message
  have hcall := call_builtin_apply robot maxSteps entry (c := ⟨Builtin.print.name, s.arguments⟩)
    (b := .print) rfl h.builtin hgiven
  rw [hcall, Builtin.invoke, hline, Machine.print]
  dsimp only
  rcases m.world.sink.write line.toUTF8 with ⟨all, sink⟩
  cases all <;> rfl

/-- When the sink takes the line, it is printed and nothing else happens. -/
theorem head_taken (h : s.Prints m.names line) (htaken : (m.world.sink.write line.toUTF8).1 = true)
    (entry : Entry (Bench σ)) :
    (s.head (Bench.setting robot maxSteps) entry m).2 = m.print line ∧
      ¬ ClosesSink (s.head (Bench.setting robot maxSteps) entry m).1 := by
  obtain ⟨k, hk, hhead⟩ := h.head_calls (Bench.setting robot maxSteps) entry
  have hcall := h.call_apply robot maxSteps entry
  rw [if_pos htaken] at hcall
  rw [hhead, Exec.bind_ok hcall]
  refine ⟨(hk .nil _).machine, ?_⟩
  rintro ⟨path, hclosed⟩
  exact ((hk .nil _).of_value hclosed).2

/-- When the sink does not take the line, the statement fails there. -/
theorem head_refused (h : s.Prints m.names line)
    (hrefused : (m.world.sink.write line.toUTF8).1 = false) (entry : Entry (Bench σ)) :
    s.head (Bench.setting robot maxSteps) entry m =
      (.error (.fault ⟨[], .sinkClosed⟩), m.print line) := by
  obtain ⟨k, -, hhead⟩ := h.head_calls (Bench.setting robot maxSteps) entry
  have hcall := h.call_apply robot maxSteps entry
  rw [hrefused] at hcall
  rw [hhead]
  exact Exec.bind_error hcall

end Statement.Prints

/-- Only the operation `print` fails because the sink did not take a line. -/
theorem call_named_closes {depth : Nat} {name : String} {given : Arguments}
    (h : (callNamed (Bench.setting robot maxSteps) (enter (Bench.setting robot maxSteps) depth) name
      given).Faults m ⟨[], .sinkClosed⟩) :
    m.names.procedures.find? name = none ∧ name = Builtin.print.name := by
  unfold Exec.Faults at h
  cases hfind : m.names.procedures.find? name with
  | some body =>
      rw [call_named_procedure _ _ hfind] at h
      split at h
      · cases enter_refused h
      · cases h
  | none =>
      refine ⟨rfl, ?_⟩
      cases hact : (Bench.setting robot maxSteps).host.operation? name with
      | none =>
          rw [call_named_none _ _ hfind hact] at h
          cases h
      | some act =>
          rw [call_named_operation _ _ hfind hact, run_operation_apply] at h
          change Except.mapError _ (act given m.world).1 = _ at h
          cases hresult : (act given m.world).1 with
          | ok value =>
              rw [hresult] at h
              cases h
          | error cause =>
              rw [hresult] at h
              cases h
              exact ((Bench.operation_fails hact hresult).resolve_left id).2

/-- A statement that fails itself because the sink did not take a line prints that line. -/
theorem Statement.head_closes {depth : Nat}
    (h : (s.head (Bench.setting robot maxSteps) (enter (Bench.setting robot maxSteps) depth)).Faults
      m ⟨[], .sinkClosed⟩) :
    ∃ line, s.Prints m.names line ∧ (m.world.sink.write line.toUTF8).1 = false := by
  rcases s.head_evaluates _ _ m with ⟨name, hcallee, k, hk, hhead⟩ | ⟨hcomputes, -⟩
  · have hfails := h
    unfold Exec.Faults at hfails
    rw [hhead] at hfails
    have hcall := (Exec.Faults.of_bind hfails).resolve_right fun ⟨value, m₁, _, hlater⟩ =>
      ((hk value m₁).of_value hlater).2
    unfold Exec.Faults at hcall
    rw [call_run_apply] at hcall
    cases hgiven : gather m.names s.arguments .none with
    | error cause =>
        rw [hgiven] at hcall
        cases hcall
        exact absurd (ForValues.gather m.names s.arguments .none _ hgiven) id
    | ok given =>
        rw [hgiven] at hcall
        obtain ⟨hbuiltin, rfl⟩ := call_named_closes hcall
        have hprints : s.Prints m.names (Builtin.message given ++ "\n") :=
          ⟨hcallee, hbuiltin, given, hgiven, rfl⟩
        refine ⟨_, hprints, Bool.eq_false_of_not_eq_true fun htaken => ?_⟩
        exact (hprints.head_taken htaken _).2 ⟨[], h⟩
  · exact absurd (hcomputes.of_value h).2 id

end

/-! ## Two runs -/

/-- Every change to a bench that grows makes it grow. -/
theorem Host.Grows.respects {ω : Type} {setting : Setting ω} {Extends : ω → ω → Prop}
    (h : setting.host.Grows Extends) :
    setting.Respects fun m m' => Extends m.world m'.world where
  refl m := h.refl m.world
  trans := h.trans
  watch event m := by
    rw [Machine.watched_eq h.watch]
    exact h.refl m.world
  count m := h.refl m.world
  assign _ _ m := h.refl m.world
  define _ _ m := h.refl m.world
  operation hact arguments m := (h.operation hact arguments m.world).1

section

variable {σ : Type} (robot : Robot σ) (maxSteps : Option Nat) (script : Script)

/-- A run whose sink does not take a line ends at a statement that prints it. -/
theorem refused_run {m : Machine (Bench σ)}
    (h : ClosesSink (script.run (Bench.setting robot maxSteps) m).1) :
    ∃ (p : Point (Bench σ)) (line : String),
      Comes (Bench.setting robot maxSteps) maxCallDepth script m p ∧
      p.statement.Prints p.machine.names line ∧
      (p.machine.world.sink.write line.toUTF8).1 = false ∧
      script.run (Bench.setting robot maxSteps) m =
        (.error (.fault ⟨p.path, .sinkClosed⟩), p.machine.print line) := by
  obtain ⟨path, hclosed⟩ := h
  have hfails : (script.run (Bench.setting robot maxSteps)).Faults m ⟨path, .sinkClosed⟩ := hclosed
  have hbody : (runNodes (Bench.setting robot maxSteps) (enter (Bench.setting robot maxSteps)
      maxCallDepth) script).Faults m ⟨path, .sinkClosed⟩ := by
    rcases hfails.of_bind with hbody | ⟨flow, m₁, -, hlater⟩
    · exact hbody.of_between
    · cases flow <;> cases hlater
  obtain ⟨p, hcomes, -, hhead⟩ := (run_nodes_fault maxCallDepth script hbody).comes id
  obtain ⟨line, hprints, hrefused⟩ := Statement.head_closes hhead
  have hwithin := (script.within (fun _ _ => rfl)).trans (hcomes.within fun _ _ => rfl)
  refine ⟨p, line, hcomes, hprints, hrefused, ?_⟩
  have hrun := hwithin.fails (hprints.head_refused hrefused _)
  rwa [List.append_nil] at hrun

/-- A run on a recorded robot goes on from where a statement prints, with the line printed. -/
theorem printed_run {m : Machine (Bench (σ × List Command))} {p : Point (Bench (σ × List Command))}
    {line : String} (hcomes : Comes (Bench.setting robot.recorded maxSteps) maxCallDepth script m p)
    (hprints : p.statement.Prints p.machine.names line)
    (htaken : (p.machine.world.sink.write line.toUTF8).1 = true) :
    (p.machine.print line).world.Extends
      (script.run (Bench.setting robot.recorded maxSteps) m).2.world := by
  have hwithin := (script.within (fun _ _ => rfl)).trans (hcomes.within fun _ _ => rfl)
  have hgrows : (Bench.setting robot.recorded maxSteps).host.Grows Bench.Extends :=
    Bench.grows robot
  have hleads := hwithin.leads hgrows.respects
  rwa [Point.head, (hprints.head_taken htaken _).1] at hleads

/-- A sink that keeps a number of bytes and then fails cuts a run off at the byte. Two runs begin
in the same state, one with such a sink and one with a sink that keeps everything. If all output
of the second fits into the capacity, the runs have the same result and do the same. Otherwise the
second comes to a statement that prints the line in which the first byte too many is, and the
first run fails right there: what the sink reports is the cause, with the path of the statement.
Its output is that of the second up to the capacity, and its robot, names and steps are those that
were there before the statement printed, so that its commands begin those of the second. -/
theorem closed_sink_cuts_off (state : σ) (names : Namespace) (capacity : Nat) :
    let setting := Bench.setting robot.recorded maxSteps
    let start (most : Option Nat) : Machine (Bench (σ × List Command)) :=
      ⟨⟨(state, []), ⟨most, .empty⟩⟩, names, 0⟩
    let short := script.run setting (start (some capacity))
    let long := script.run setting (start none)
    let output := long.2.world.sink.printed
    (output.length ≤ capacity → short.1 = long.1 ∧ short.2.world.sink.printed = output ∧
      short.2.world.robot = long.2.world.robot ∧ short.2.names = long.2.names ∧
      short.2.steps = long.2.steps) ∧
    (capacity < output.length → ∃ (p : Point (Bench (σ × List Command))) (line : String),
      Comes setting maxCallDepth script (start none) p ∧
      p.statement.Prints p.machine.names line ∧
      p.machine.world.sink.printed ++ Text.bytes line <+: output ∧
      p.machine.world.sink.printed.length ≤ capacity ∧
      capacity < (p.machine.world.sink.printed ++ Text.bytes line).length ∧
      short.1 = .error (.fault ⟨p.path, .sinkClosed⟩) ∧
      short.2.world.sink.printed = output.take capacity ∧
      short.2.world.robot = p.machine.world.robot ∧ short.2.names = p.machine.names ∧
      short.2.steps = p.machine.steps ∧
      short.2.world.commands <+: long.2.world.commands) := by
  intro setting start short long output
  have hkept : setting.host.Keeps _ := Bench.fits_kept robot.recorded (some capacity)
  have hempty : (start (some capacity)).world.sink.Fits := fun _ _ => Nat.zero_le _
  by_cases hclosed : ClosesSink short.1
  · obtain ⟨p, line, hcomes, hprints, hrefused, hshort⟩ :=
      refused_run robot.recorded maxSteps script hclosed
    obtain ⟨hcapacity, hfits⟩ := hcomes.related hkept.respects ⟨rfl, hempty⟩
    obtain ⟨hover, hcut⟩ := Sink.write_refused hcapacity hfits hrefused
    -- the other run comes to the same point, and prints the line
    have hsame := hcomes.carried (unrefused_carries robot.recorded maxSteps)
    obtain ⟨hcommands, hprinted⟩ := printed_run robot maxSteps script hsame hprints
      (congrArg Prod.fst (p.machine.world.sink.write_lifted line.toUTF8))
    have hline : p.machine.world.sink.printed ++ Text.bytes line <+: output := by
      rwa [← Sink.printed_write_lifted]
    have hlength : capacity < (p.machine.world.sink.printed ++ Text.bytes line).length := by
      rwa [List.length_append]
    have hoff : (p.machine.print line).world.sink.printed = output.take capacity := by
      obtain ⟨more, hmore⟩ := hline
      rw [← hmore, List.take_append_of_le_length (Nat.le_of_lt hlength)]
      exact hcut
    refine ⟨fun hall => absurd (hline.length_le.trans hall) (Nat.not_le.2 hlength), fun _ => ?_⟩
    rw [show short = _ from hshort]
    exact ⟨_, line, hsame, hprints, hline, hfits capacity hcapacity, hlength, rfl, hoff, rfl, rfl,
      rfl, hcommands⟩
  · have hsame : long = (short.1, short.2.project Bench.lifted) :=
      (unrefused_simulation robot.recorded maxSteps).script script (fun _ _ _ _ _ => trivial)
        (start (some capacity)) hclosed
    obtain ⟨hcapacity, hfits⟩ := script_preserves setting hkept script (start (some capacity))
      ⟨rfl, hempty⟩
    have houtput : output = short.2.world.sink.printed :=
      congrArg (fun result => result.2.world.sink.printed) hsame
    have hall : output.length ≤ capacity := by
      rw [houtput]
      exact hfits capacity hcapacity
    refine ⟨fun _ => ?_, fun hover => absurd hall (Nat.not_le.2 hover)⟩
    rw [hsame]
    exact ⟨rfl, houtput.symm, rfl, rfl, rfl⟩

end

/-- A procedure that is called in a loop and prints a character of two bytes. The second line is
cut off within the character. -/
theorem closed_sink_cuts_off_character :
    let script : Script := [.mk 1 (.define "say" [.mk 2 (.call ⟨"print", [⟨none, .word "é"⟩]⟩)]),
      .mk 4 (.loop [.mk 5 (.call ⟨"say", []⟩), .mk 6 (.call ⟨"say", []⟩), .mk 7 .leave])]
    let start (most : Option Nat) : Machine (Bench (Unit × List Command)) :=
      ⟨⟨((), []), ⟨most, .empty⟩⟩, .empty, 0⟩
    let setting := Bench.setting Robot.idle.recorded none
    let short := script.run setting (start (some 4))
    let output := (script.run setting (start none)).2.world.sink.printed
    Script.ofText "def say\nprint é\nend\nloop\nsay\nsay\nbreak\nend" 1 = .ok script ∧
      output = [0xC3, 0xA9, 10, 0xC3, 0xA9, 10] ∧
      short.2.world.sink.printed = [0xC3, 0xA9, 10, 0xC3] ∧
      ∃ (p : Point (Bench (Unit × List Command))) (line : String),
        p.path = [.line 4, .line 6, .procedure "say", .line 2] ∧
        Comes setting maxCallDepth script (start none) p ∧
        p.statement.Prints p.machine.names line ∧
        short.1 = .error (.fault ⟨p.path, .sinkClosed⟩) := by
  intro script start setting short output
  have hread : Script.ofText "def say\nprint é\nend\nloop\nsay\nsay\nbreak\nend" 1 = .ok script :=
    rfl
  have houtput : output = [0xC3, 0xA9, 10, 0xC3, 0xA9, 10] := by decide +kernel
  have hkept : short.2.world.sink.printed = [0xC3, 0xA9, 10, 0xC3] := by decide +kernel
  have hshort : short.1 = .error (.fault ⟨[.line 4, .line 6, .procedure "say", .line 2],
    .sinkClosed⟩) := by decide +kernel
  obtain ⟨p, line, hcomes, hprints, -, -, -, hresult, -⟩ :=
    (closed_sink_cuts_off Robot.idle none script () .empty 4).2 (by decide +kernel)
  change short.1 = _ at hresult
  have hpath : p.path = [.line 4, .line 6, .procedure "say", .line 2] := by
    have hsame := Except.error.inj (hresult.symm.trans hshort)
    exact congrArg Fault.path (Halt.fault.inj hsame)
  exact ⟨hread, houtput, hkept, p, line, hpath, hcomes, hprints, hresult⟩

end RobotBench
