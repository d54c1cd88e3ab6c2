import RobotBench.Proofs.Run.Bindings
import RobotBench.Proofs.Run.FaultPath
import RobotBench.Proofs.Run.Invariant

/-!
# Runs only advance

Wherever a run has come to, the machine there is related to the one it began in by whatever every
change respects. No change takes a step back, and none forgets a procedure: the machine afterwards
has at least the steps and the procedures that were there before (`advances_respects`). So what may
be called once may be called ever after (`Machine.Advances.callable`), and nodes that end without a
failure have taken a step if there are any (`run_nodes_step`).
-/

namespace RobotBench

variable {ω : Type} {setting : Setting ω}

/-! ## The points of a run -/

section

variable {R : Machine ω → Machine ω → Prop} (h : setting.Respects R) {depth : Nat}
  {m m' : Machine ω}
include h

theorem Exec.Laps.related {test : Exec ω Bool} {body : Exec ω Flow} {pause : Exec ω Unit}
    (htest : test.Leads R) (hbody : body.Leads R) (hpause : pause.Leads R) {laps : Nat}
    (hlaps : Laps test body pause laps m m') : R m m' := by
  induction hlaps with
  | none m => exact h.refl m
  | round h₁ h₂ h₃ _ ih =>
      exact h.trans (htest.related h₁) (h.trans (hbody.related h₂) (h.trans (hpause.related h₃) ih))

theorem Statement.EvaluatesAt.related {s : Statement}
    (hat : s.EvaluatesAt setting (enter setting depth) m m') : R m m' := by
  cases hat with
  | once => exact h.refl m
  | again _ hrounds => exact hrounds.related h (h.test depth _) (h.block depth _) h.step

theorem Statement.BlockAt.related {s : Statement} {body : List Node}
    (hat : s.BlockAt setting (enter setting depth) m body m') : R m m' := by
  cases hat with
  | repeated hcount _ hrounds =>
      exact h.trans ((h.read_count depth _).related hcount)
        (hrounds.related h (h.pure true) (h.block depth body) (h.pure ()))
  | loop _ hrounds => exact hrounds.related h (h.pure true) (h.block depth body) h.step
  | whilst _ hrounds htest =>
      exact h.trans (hrounds.related h (h.test depth _) (h.block depth body) h.step)
        ((h.test depth _).related htest)
  | yes htest => exact (h.test depth _).related htest
  | no htest => exact (h.test depth _).related htest

theorem Arrives.related {nodes : List Node} {node : Node}
    (hat : Arrives setting (enter setting depth) nodes m node m') : R m m' := by
  induction hat with
  | first node more m => exact h.refl m
  | later hfirst _ ih => exact h.trans ((h.node depth _).related hfirst) ih

end

/-! ## Steps and procedures -/

/-- A machine with at least the steps of another one and with all its procedures. -/
structure Machine.Advances (before after : Machine ω) : Prop where
  steps : before.steps ≤ after.steps
  procedures : before.names.procedures.Extends (fun _ => True) after.names.procedures

/-- What may be called in a machine may be called in one that is further on. -/
theorem Machine.Advances.callable {before after : Machine ω} (h : before.Advances after)
    {name : String} (hname : isCallable before.names name) : isCallable after.names name := by
  simp only [isCallable, Bool.or_eq_true] at hname ⊢
  exact hname.imp_left (·.imp_left h.procedures.bound)

/-- Every change that a run makes advances. -/
theorem advances_respects (setting : Setting ω) : setting.Respects Machine.Advances where
  refl _ := ⟨Nat.le_refl _, .refl _⟩
  trans h h' := ⟨Nat.le_trans h.steps h'.steps, h.procedures.trans h'.procedures⟩
  watch _ _ := ⟨Nat.le_refl _, .refl _⟩
  count m := ⟨Nat.le_succ m.steps, .refl _⟩
  assign _ _ _ := ⟨Nat.le_refl _, .refl _⟩
  define _ body _ := ⟨Nat.le_refl _, .set _ trivial body⟩
  operation _ _ _ := ⟨Nat.le_refl _, .refl _⟩

variable {depth : Nat} {m m' : Machine ω}

/-- A node that ends without a failure has taken a step. -/
theorem Node.run_step {node : Node} {flow : Flow}
    (h : node.run setting (enter setting depth) m = (.ok flow, m')) : m.steps < m'.steps := by
  obtain ⟨line, s⟩ := node
  rcases count_step_cases setting m with ⟨-, hcount⟩ | ⟨limit, -, -, hcount⟩
  · rw [Node.run, Exec.under_apply, Exec.bind_ok hcount] at h
    obtain ⟨-, rfl⟩ := Prod.mk.inj h
    exact ((advances_respects setting).statement depth s
      ⟨setting.host.watch .step m.world, m.names, m.steps + 1⟩).steps
  · rw [Node.run, Exec.under_apply, Exec.bind_error hcount] at h
    cases h

/-- Nodes that end without a failure have taken a step, if there are any. -/
theorem run_nodes_step {nodes : List Node} (hnodes : nodes ≠ []) {flow : Flow}
    (h : runNodes setting (enter setting depth) nodes m = (.ok flow, m')) : m.steps < m'.steps := by
  obtain ⟨node, more, rfl⟩ := List.exists_cons_of_ne_nil hnodes
  rw [runNodes] at h
  rcases hnode : node.run setting (enter setting depth) m with ⟨halt | first, m₁⟩
  · rw [Exec.bind_error hnode] at h
    cases h
  · have hstep := Node.run_step hnode
    rw [Exec.bind_ok hnode] at h
    cases first with
    | next =>
        have hmore := ((advances_respects setting).nodes depth more).related h
        exact Nat.lt_of_lt_of_le hstep hmore.steps
    | leave =>
        cases h
        exact hstep
    | answer value =>
        cases h
        exact hstep

end RobotBench
