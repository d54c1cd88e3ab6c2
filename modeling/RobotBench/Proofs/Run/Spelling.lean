import RobotBench.Proofs.Run.Alike
import RobotBench.Proofs.Run.StepLimit
import RobotBench.Proofs.Script.Spelling

/-!
# `loop` and `while true` run the same

The meaning of `while true` is the meaning of `loop`, as `Statement.run_whilst_always` says, and
the meaning of every other statement respects how the loops in its blocks are spelled. So
scripts that differ in nothing but that run the same: `loop_is_while_true`.
-/

namespace RobotBench

/-! ## Faults on the same lines -/

theorem Frame.Alike.eq {frame frame' : Frame} (h : frame.Alike Eq frame') : frame = frame' := by
  cases h with
  | line h => rw [h]
  | procedure name => rfl

theorem Fault.Alike.eq {f f' : Fault} (h : f.Alike Eq f') : f = f' := by
  obtain ⟨path, cause⟩ := f
  obtain ⟨path', cause'⟩ := f'
  obtain ⟨hpath, hcause⟩ := h
  obtain rfl : cause = cause' := hcause
  obtain rfl : path = path' := List.forall₂_eq_eq_eq ▸ hpath.imp fun _ _ => Frame.Alike.eq
  rfl

theorem Halt.Alike.eq {halt halt' : Halt} (h : halt.Alike Eq halt') : halt = halt' := by
  cases h with
  | fault hf => rw [hf.eq]
  | endless => rfl

/-- Executions that are alike up to no lines have the same result. -/
theorem RunsAlike.result_eq {ω α : Type} {Bodies : List Node → List Node → Prop}
    {x x' : Exec ω α} (h : RunsAlike Eq Bodies x x') {m m' : Machine ω} (hm : m.Alike Bodies m') :
    (x m).1 = (x' m').1 ∧ (x m).2.Alike Bodies (x' m').2 := by
  obtain ⟨hresult, hafter⟩ := h m m' hm
  refine ⟨?_, hafter⟩
  generalize (x m).1 = result at hresult
  generalize (x' m').1 = result' at hresult
  cases hresult with
  | ok h => rw [h]
  | error hhalt => rw [hhalt.eq]

section

variable {ω : Type} {setting : Setting ω}

/-! ## Loops -/

theorem Condition.test_always (entry : Entry ω) :
    Condition.always.test setting entry = pure true := rfl

/-- The two spellings of a loop have one meaning. -/
theorem Statement.run_whilst_always (entry : Entry ω) (body : List Node) :
    (whilst .always body).run setting entry = (loop body).run setting entry := by
  show Exec.whilst _ _ _ _ = Exec.forever _ _ _
  rw [Exec.forever_eq_whilst, Condition.test_always]

/-! ## Trees -/

mutual

/-- Statements that are respelled run alike. -/
theorem Statement.runs_respelled {entry entry' : Entry ω}
    (hentry : EntriesAlike Eq NodesRespelled entry entry') (s : Statement) {s' : Statement}
    (h : s.Respelled s') :
    RunsAlike Eq NodesRespelled (s.run setting entry) (s'.run setting entry') := by
  cases s with
  | define name body =>
      cases h with
      | plain hs => exact False.elim hs
      | define _ hbody => exact Statement.define_runs_alike name hbody
  | repeated count body =>
      cases h with
      | plain hs => exact False.elim hs
      | repeated _ hbody =>
          exact Statement.repeated_runs_alike (nodes_run_respelled hentry body hbody) hentry
            count
  | loop body =>
      cases h with
      | plain hs => exact False.elim hs
      | loop hbody => exact Statement.loop_runs_alike (nodes_run_respelled hentry body hbody)
      | toWhilst hbody =>
          rw [Statement.run_whilst_always]
          exact Statement.loop_runs_alike (nodes_run_respelled hentry body hbody)
  | whilst condition body =>
      cases h with
      | plain hs => exact False.elim hs
      | whilst _ hbody =>
          exact Statement.whilst_runs_alike (nodes_run_respelled hentry body hbody) hentry
            condition
      | toLoop hbody =>
          rw [Statement.run_whilst_always]
          exact Statement.loop_runs_alike (nodes_run_respelled hentry body hbody)
  | branch condition yes no =>
      cases h with
      | plain hs => exact False.elim hs
      | branch _ hyes hno =>
          exact Statement.branch_runs_alike (nodes_run_respelled hentry yes hyes) hentry condition
            (nodes_run_respelled hentry no hno)
  | _ =>
      cases h
      exact Statement.plain_runs_alike hentry trivial
  termination_by structural s

/-- Nodes that are respelled run alike. -/
theorem nodes_run_respelled {entry entry' : Entry ω}
    (hentry : EntriesAlike Eq NodesRespelled entry entry') (nodes : List Node)
    {nodes' : List Node} (h : NodesRespelled nodes nodes') :
    RunsAlike Eq NodesRespelled (runNodes setting entry nodes)
      (runNodes setting entry' nodes') := by
  cases nodes with
  | nil =>
      cases h
      exact .pure _
  | cons node more =>
      obtain ⟨line, s⟩ := node
      cases h with
      | cons hnode hmore =>
          cases hnode with
          | mk _ hs =>
              exact .nodes_cons rfl (s.runs_respelled hentry hs)
                (nodes_run_respelled hentry more hmore)
  termination_by structural nodes

end

theorem bodies_run_respelled : BodiesRunAlike Eq NodesRespelled setting :=
  fun _ _ hentry body _ h => nodes_run_respelled hentry body h

end

/-- A machine is like itself, whatever loops the procedures have. -/
theorem Machine.respelled_refl {ω : Type} (m : Machine ω) : m.Alike NodesRespelled m :=
  ⟨rfl, ⟨rfl, m.names.procedures.alike_refl nodes_respelled_refl⟩, rfl⟩

/-- `loop` and `while true` are the same statement. With some lines `loop` replaced by
`while true`, or the reverse, a text that is a script is a script in which these loops are
spelled the other way. And scripts that differ in the spelling of loops run the same, whatever
the robot, the sink, the names, the limit on steps and the number of rounds that are followed,
where procedures bound before may differ in that, too: they have the same result or fail with
the same path and cause, and the robot, its commands, what was printed, the variables and the
steps are then the same, and so are the procedures but for the spelling of loops. It is the
same with calls of procedures. -/
theorem loop_is_while_true :
    (∀ (text text' : String) (firstLine : Nat) (script : Script),
      Script.ofText text firstLine = .ok script →
      List.Forall₂ LineRespelled (Text.lines text.toList) (Text.lines text'.toList) →
      ∃ script', Script.ofText text' firstLine = .ok script' ∧ NodesRespelled script script') ∧
    ∀ {σ : Type} (robot : Robot σ) (maxSteps : Option Nat) (rounds : Nat)
      (m m' : Machine (Bench (σ × List Command))), m.Alike NodesRespelled m' →
      let setting : Setting (Bench (σ × List Command)) :=
        ⟨Bench.host robot.recorded, maxSteps, rounds⟩
      (∀ script script' : Script, NodesRespelled script script' →
        (script.run setting m).1 = (script'.run setting m').1 ∧
        (script.run setting m).2.Alike NodesRespelled (script'.run setting m').2) ∧
      ∀ name, (callProcedure setting name m).1 = (callProcedure setting name m').1 ∧
        (callProcedure setting name m).2.Alike NodesRespelled
          (callProcedure setting name m').2 := by
  refine ⟨fun _ _ _ _ => of_text_respelled, fun robot maxSteps rounds m m' hm => ?_⟩
  intro setting
  have hhost : setting.host.Heedless NodesRespelled := Bench.heedless robot.recorded _
  exact ⟨fun script script' h => (bodies_run_respelled.script hhost h).result_eq hm,
    fun name => (bodies_run_respelled.call_procedure hhost name).result_eq hm⟩

/-- A loop that never ends around a procedure that leaves one by `return`, each spelled the
other way. The limit on steps is hit in the outer loop. -/
theorem loop_is_while_true_limit :
    let text := "def f\nloop\nreturn\nend\nend\nwhile true\nf\nend\n"
    let text' := "def f\nwhile true\nreturn\nend\nend\nloop\nf\nend\n"
    let setting : Setting (Bench (Unit × List Command)) :=
      ⟨Bench.host Robot.idle.recorded, some 5, 9⟩
    let start : Machine (Bench (Unit × List Command)) := ⟨⟨((), []), .unbounded⟩, .empty, 0⟩
    let script : Script := [.mk 1 (.define "f" [.mk 2 (.loop [.mk 3 (.answer none)])]),
      .mk 6 (.whilst .always [.mk 7 (.call ⟨"f", []⟩)])]
    Script.ofText text 1 = .ok script ∧ ∃ script', Script.ofText text' 1 = .ok script' ∧
      (Script.run setting script' start).1 = .error (.fault ⟨[.line 6], .stepLimit 5⟩) ∧
      (Script.run setting script' start).2.steps = 6 := by
  intro text text' setting start script
  obtain ⟨htext, hrun⟩ := loop_is_while_true
  have hscript : Script.ofText "def f\nloop\nreturn\nend\nend\nwhile true\nf\nend\n" 1 =
    .ok script := rfl
  have hlines : List.Forall₂ LineRespelled
      (Text.lines "def f\nloop\nreturn\nend\nend\nwhile true\nf\nend\n".toList)
      (Text.lines "def f\nwhile true\nreturn\nend\nend\nloop\nf\nend\n".toList) :=
    .cons (.some (.same ["def", "f"])) (.cons (.some .toWhilst) (.cons (.some (.same ["return"]))
      (.cons (.some (.same ["end"])) (.cons (.some (.same ["end"])) (.cons (.some .toLoop)
        (.cons (.some (.same ["f"])) (.cons (.some (.same ["end"])) .nil)))))))
  obtain ⟨script', hscript', hrespelled⟩ := htext _ _ 1 script hscript hlines
  obtain ⟨hresult, hafter⟩ :=
    (hrun Robot.idle (some 5) 9 start start (Machine.respelled_refl start)).1 _ _ hrespelled
  have hlimit : script.run setting start = (.error (.fault ⟨[.line 6], .stepLimit 5⟩), _) := rfl
  rw [hlimit] at hresult hafter
  exact ⟨hscript, script', hscript', hresult.symm, hafter.steps.symm⟩

end RobotBench
