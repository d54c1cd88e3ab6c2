import RobotBench.Proofs.Run.Alike
import RobotBench.Proofs.Run.StepLimit
import RobotBench.Proofs.Script.Spoken
import RobotBench.Proofs.Splicing
import RobotBench.Trial

/-!
# Line numbers are labels

Blank lines, comments, blanks at the ends of lines and the number of the first line decide
nothing but the numbers in messages. Texts that say the same are read as scripts that are
alike, and scripts that are alike run alike on every bench (`layout_never_matters`). So a
payload that is put into a file of its own runs as it does at the end of its program.
-/

namespace RobotBench

/-- The trials failed alike, but for the lines that are blamed. -/
inductive TrialFault.Alike (Lines : Nat → Nat → Prop) : TrialFault → TrialFault → Prop
  | unreadable {f f' : ParseFault} (h : f.Alike Lines f') :
      TrialFault.Alike Lines (.unreadable f) (.unreadable f')
  | faulted {f f' : Fault} (h : f.Alike Lines f') :
      TrialFault.Alike Lines (.faulted f) (.faulted f')
  | endless : TrialFault.Alike Lines .endless .endless

/-- Payloads whose lines say the same are tried alike. -/
theorem trial_alike {σ : Type} {Lines : Nat → Nat → Prop} (robot : Robot σ)
    (maxSteps : Option Nat) (entryPoint : Option String) {payload payload' : Payload}
    (h : SayAlike Lines (numberedLines payload.firstLine (Text.lines payload.text.toList))
      (numberedLines payload'.firstLine (Text.lines payload'.text.toList)))
    (bench : Bench σ) :
    EndAlike (TrialFault.Alike Lines) Eq (Trial.run robot maxSteps entryPoint payload bench).1
        (Trial.run robot maxSteps entryPoint payload' bench).1 ∧
      (Trial.run robot maxSteps entryPoint payload bench).2.Alike (NodesAlike Lines)
        (Trial.run robot maxSteps entryPoint payload' bench).2 := by
  have hhost := Bench.heedless robot (NodesAlike Lines)
  have hstart : Machine.Alike (NodesAlike Lines) (⟨bench, .empty, 0⟩ : Machine (Bench σ))
      ⟨bench, .empty, 0⟩ := ⟨rfl, Namespace.alike_empty _, rfl⟩
  have hread := of_text_alike h
  unfold Trial.run
  generalize Script.ofText payload.text payload.firstLine = x at hread ⊢
  generalize Script.ofText payload'.text payload'.firstLine = x' at hread ⊢
  cases hread with
  | error hfault => exact ⟨.error (.unreadable hfault), hstart⟩
  | @ok script script' hscript =>
      have hrun : RunsAlike Lines (NodesAlike Lines)
          (Trial.runScript (Bench.setting robot maxSteps) script entryPoint)
          (Trial.runScript (Bench.setting robot maxSteps) script' entryPoint) := by
        refine .bind (script_alike hhost hscript) fun _ => ?_
        cases entryPoint with
        | none => exact .pure _
        | some name => exact .bind (call_procedure_alike hhost name) fun _ => .pure _
      obtain ⟨hresult, hafter⟩ := hrun _ _ hstart
      refine ⟨?_, hafter⟩
      show EndAlike _ _ (Except.mapError _ (Trial.runScript _ script entryPoint _).1)
        (Except.mapError _ (Trial.runScript _ script' entryPoint _).1)
      generalize (Trial.runScript _ script entryPoint _).1 = result at hresult ⊢
      generalize (Trial.runScript _ script' entryPoint _).1 = result' at hresult ⊢
      cases hresult with
      | ok h => exact .ok h
      | error hhalt =>
          cases hhalt with
          | fault hf => exact .error (.faulted hf)
          | endless => exact .error .endless

/-- The lines of a text say the same under numbers that are shifted. -/
theorem numbered_lines_shift (number other : Nat) (ls : List (List Char)) :
    SayAlike (fun n n' => n + other = n' + number) (numberedLines number ls)
      (numberedLines other ls) := by
  induction ls generalizing number other with
  | nil => exact .nil
  | cons cs more ih =>
      have hmore : SayAlike (fun n n' => n + other = n' + number)
          (numberedLines (number + 1) more) (numberedLines (other + 1) more) :=
        (ih (number + 1) (other + 1)).imp fun entry entry' hentry =>
          ⟨hentry.1, by have := hentry.2; omega⟩
      by_cases h : IsSilent cs
      · rw [numbered_lines_silent number cs more h, numbered_lines_silent other cs more h]
        exact hmore
      · rw [numbered_lines_spoken number cs more h, numbered_lines_spoken other cs more h]
        exact .cons ⟨rfl, Nat.add_comm number other⟩ hmore

/-- Two texts that say the same, under whatever numbers. There is a relabelling, increasing on
the numbers of the lines that say something, that takes these to the numbers in the other
text. Up to it both are read alike, as scripts or with faults. And whatever relation between
line numbers the relabelling is in: from names that are alike up to that relation, and the
same bench, both scripts run alike, with the same result or the same fault up to the lines on
its path, the same commands, output and steps, and with names afterwards that are again alike.
In particular a payload runs as it does when it is a program of its own, with its lines
counted from one. -/
theorem layout_never_matters (text text' : String) (firstLine firstLine' : Nat)
    (h : spokenLines (Text.lines text.toList) = spokenLines (Text.lines text'.toList)) :
    (∃ relabel : Nat → Nat,
      StrictMonoOn relabel {n | n ∈ spokenNumbers firstLine (Text.lines text.toList)} ∧
      spokenNumbers firstLine' (Text.lines text'.toList) =
        (spokenNumbers firstLine (Text.lines text.toList)).map relabel ∧
      ∀ Lines : Nat → Nat → Prop,
        (∀ n ∈ spokenNumbers firstLine (Text.lines text.toList), Lines n (relabel n)) →
        EndAlike (ParseFault.Alike Lines) (NodesAlike Lines)
          (Script.ofText text firstLine) (Script.ofText text' firstLine') ∧
        ∀ script script', Script.ofText text firstLine = .ok script →
          Script.ofText text' firstLine' = .ok script' →
          ∀ {σ : Type} (robot : Robot σ) (maxSteps : Option Nat)
            (bench : Bench (σ × List Command)) (names names' : Namespace),
            names.Alike (NodesAlike Lines) names' →
            let setting := Bench.setting robot.recorded maxSteps
            let run := script.run setting ⟨bench, names, 0⟩
            let run' := script'.run setting ⟨bench, names', 0⟩
            EndAlike (Halt.Alike Lines) Eq run.1 run'.1 ∧
              run.2.Alike (NodesAlike Lines) run'.2) ∧
    ∀ (source : String) (markers : Markers) {σ : Type} (robot : Robot σ) (maxSteps : Option Nat)
      (entryPoint : Option String) (bench : Bench (σ × List Command)),
      let payload := (Program.ofText source).payload markers
      let own := (Program.ofText payload.text).payload markers
      let Lines := fun n n' : Nat => n + 1 = n' + payload.firstLine
      let run := Trial.run robot.recorded maxSteps entryPoint payload bench
      let run' := Trial.run robot.recorded maxSteps entryPoint own bench
      EndAlike (TrialFault.Alike Lines) Eq run.1 run'.1 ∧
        run.2.Alike (NodesAlike Lines) run'.2 := by
  constructor
  · have hlength : (spokenNumbers firstLine (Text.lines text.toList)).length =
        (spokenNumbers firstLine' (Text.lines text'.toList)).length := by
      have hcount := congrArg List.length h
      rw [← map_fst_numbered_lines firstLine, ← map_fst_numbered_lines firstLine',
        List.length_map, List.length_map] at hcount
      rw [spokenNumbers, spokenNumbers, List.length_map, List.length_map, hcount]
    -- both lists of numbers increase and are of one length, so that one is the other relabelled
    obtain ⟨relabel, hnumbers, hmono⟩ := exists_relabel
      (spoken_numbers_increase firstLine (Text.lines text.toList)).1
      (spoken_numbers_increase firstLine' (Text.lines text'.toList)).1 hlength
    refine ⟨relabel, hmono, hnumbers, fun Lines hLines => ?_⟩
    have hread := of_text_alike (say_alike_of_relabel h hnumbers hLines)
    refine ⟨hread, fun script script' hscript hscript' σ robot maxSteps bench names names'
      hnames => ?_⟩
    rw [hscript, hscript'] at hread
    cases hread with
    | ok halike =>
        exact script_alike (Bench.heedless robot.recorded _) halike _ _ ⟨rfl, hnames, rfl⟩
  · intro source markers σ robot maxSteps entryPoint bench payload own Lines
    -- no line of a payload is marked, so that as a program of its own it is not cut again
    have hown : own = ⟨none, 1, payload.text⟩ := Program.payload_payload markers source
    have hlines : SayAlike Lines (numberedLines payload.firstLine (Text.lines payload.text.toList))
        (numberedLines own.firstLine (Text.lines own.text.toList)) := by
      rw [hown]
      exact numbered_lines_shift payload.firstLine 1 _
    exact trial_alike robot.recorded maxSteps entryPoint hlines bench

/-- A procedure that fails when it is called in a branch, written with and without comments,
blank lines and indentation. -/
theorem layout_never_matters_indented :
    let text := "# go\n\ndef f\n  fail now\nend\nif true\n\t# call\n  f \r\nend"
    let text' := "def f\nfail now\nend\nif true\nf\nend\n"
    let script : Script := [.mk 5 (.define "f" [.mk 6 (.call ⟨"fail", [⟨none, .word "now"⟩]⟩)]),
      .mk 8 (.branch (.truthy (.literal (.bool true))) [.mk 10 (.call ⟨"f", []⟩)] [])]
    let script' : Script := [.mk 1 (.define "f" [.mk 2 (.call ⟨"fail", [⟨none, .word "now"⟩]⟩)]),
      .mk 4 (.branch (.truthy (.literal (.bool true))) [.mk 5 (.call ⟨"f", []⟩)] [])]
    let start : Machine (Bench (Unit × List Command)) := ⟨⟨((), []), .unbounded⟩, .empty, 0⟩
    let setting := Bench.setting Robot.idle.recorded none
    spokenLines (Text.lines text.toList) = spokenLines (Text.lines text'.toList) ∧
      Script.ofText text 3 = .ok script ∧ Script.ofText text' 1 = .ok script' ∧
      ∃ relabel, [1, 2, 3, 4, 5, 6] = [5, 6, 7, 8, 10, 11].map relabel ∧
        EndAlike (Halt.Alike fun n n' => n' = relabel n) Eq (script.run setting start).1
          (script'.run setting start).1 ∧
        (script.run setting start).2.steps = (script'.run setting start).2.steps := by
  intro text text' script script' start setting
  have hsame : spokenLines (Text.lines
        "# go\n\ndef f\n  fail now\nend\nif true\n\t# call\n  f \r\nend".toList) =
      spokenLines (Text.lines "def f\nfail now\nend\nif true\nf\nend\n".toList) := by
    decide +kernel
  have hscript : Script.ofText
      "# go\n\ndef f\n  fail now\nend\nif true\n\t# call\n  f \r\nend" 3 = .ok script := rfl
  have hscript' : Script.ofText "def f\nfail now\nend\nif true\nf\nend\n" 1 = .ok script' := rfl
  have hnumbers : spokenNumbers 3 (Text.lines
      "# go\n\ndef f\n  fail now\nend\nif true\n\t# call\n  f \r\nend".toList) =
      [5, 6, 7, 8, 10, 11] := rfl
  have hnumbers' : spokenNumbers 1 (Text.lines
      "def f\nfail now\nend\nif true\nf\nend\n".toList) = [1, 2, 3, 4, 5, 6] := rfl
  obtain ⟨⟨relabel, -, hrelabel, hrun⟩, -⟩ := layout_never_matters _ _ 3 1 hsame
  rw [hnumbers, hnumbers'] at hrelabel
  have halike := (hrun (fun n n' => n' = relabel n) fun _ _ => rfl).2 script script' hscript
    hscript' Robot.idle none start.world .empty .empty (Namespace.alike_empty _)
  exact ⟨hsame, hscript, hscript', relabel, hrelabel, halike.1, halike.2.steps⟩

end RobotBench
