import Mathlib.Tactic.SplitIfs
import RobotBench.Bench

/-!
# Causes of failure

The steps of a run, its calls and its flow have their own causes of failure. What a script
computes, its operands, arguments, counts and comparisons, and every operation of a bench, fails
for other ones, which have to do with values: `ForValues`. So it does not fail for want of steps,
nor because a name is unknown. Only printing may fail for what is no value, a sink that does not
take the whole line: `Bench.operation_fails`.
-/

namespace RobotBench

/-- An operation of a bench is a builtin, run on the sink, or one of the robot's. -/
theorem Bench.operation_cases {σ : Type} {robot : Robot σ} {name : String}
    {act : Arguments → Bench σ → Except Cause Value × Bench σ}
    (h : operation? robot name = some act) :
    (∃ b : Builtin, name = b.name ∧ act = onSink b.invoke) ∨
      ∃ read, Binding.reader? name = some read ∧ act = onRobot (Binding.run robot read) := by
  unfold operation? at h
  split at h
  · rename_i invoke hbuiltin
    obtain ⟨b, hname, rfl⟩ := Option.map_eq_some_iff.1 hbuiltin
    exact .inl ⟨b, Builtin.ofName?_eq_some_iff.1 hname, (Option.some.inj h).symm⟩
  · obtain ⟨run, hbinding, rfl⟩ := Option.map_eq_some_iff.1 h
    obtain ⟨read, hread, rfl⟩ := Option.map_eq_some_iff.1 hbinding
    exact .inr ⟨read, hread, rfl⟩

/-- The steps ran out. -/
def Cause.IsStepLimit : Cause → Prop
  | .stepLimit _ => True
  | _ => False

/-- If the computation fails, it is not for want of steps. -/
def NotForSteps {α : Type} (result : Except Cause α) : Prop :=
  ∀ cause, result = .error cause → ¬ cause.IsStepLimit

/-- A value was not what it had to be, or nothing could be made of it. -/
def Cause.IsOfValue : Cause → Prop
  | .stepLimit _ => False
  | .callDepth _ _ => False
  | .escapedFlow => False
  | .unknownOperation _ => False
  | .undefinedProcedure _ => False
  | .procedureArguments _ => False
  | .sinkClosed => False
  | _ => True

/-- If the computation fails, it is for a value. -/
def ForValues {α : Type} (result : Except Cause α) : Prop :=
  ∀ cause, result = .error cause → cause.IsOfValue

namespace ForValues

variable {α β : Type}

/-- What fails for a value does not fail for want of steps. -/
theorem not_for_steps {result : Except Cause α} (h : ForValues result) : NotForSteps result := by
  intro cause hresult hsteps
  have hvalue := h cause hresult
  cases cause with
  | stepLimit limit => exact hvalue
  | _ => exact hsteps

/-- What succeeds does not fail. -/
theorem ok (a : α) : ForValues (.ok a) := by
  intro cause h
  cases h

/-- A failure for a value, as it is. -/
theorem error {cause : Cause} (h : cause.IsOfValue) :
    ForValues (.error cause : Except Cause α) := by
  intro cause' heq
  cases heq
  exact h

/-- Computations in a row fail for values when each of them does. -/
theorem bind {result : Except Cause α} {f : α → Except Cause β} (h : ForValues result)
    (hf : ∀ a, ForValues (f a)) : ForValues (result >>= f) := by
  cases result with
  | ok a => exact hf a
  | error cause => exact error (h cause rfl)

/-- What is made of the result does not fail. -/
theorem map {result : Except Cause α} (f : α → β) (h : ForValues result) :
    ForValues (result.map f) := by
  cases result with
  | ok a => exact ok (f a)
  | error cause => exact error (h cause rfl)

/-! ## Operands, counts and comparisons -/

/-- A variable may be undefined. -/
theorem plain_value (names : Namespace) (operand : Atom) :
    ForValues (plainValue names operand) := by
  cases operand with
  | literal value => exact ok value
  | word text => exact ok _
  | «variable» name =>
      simp only [plainValue]
      split
      · exact ok _
      · exact error trivial

/-- The arguments of a call are operands. -/
theorem gather (names : Namespace) (arguments : List Argument) (done : Arguments) :
    ForValues (gather names arguments done) := by
  induction arguments generalizing done with
  | nil => exact ok done
  | cons argument more ih =>
      unfold RobotBench.gather
      split
      · exact ih _
      · rename_i cause hvalue
        exact error (plain_value names argument.value cause hvalue)

/-- A count may be no number, or not a whole one. -/
theorem count (value : Value) : ForValues value.count := by
  unfold Value.count
  split
  · exact error trivial
  · split
    · exact error trivial
    · exact ok _

/-- Values may have no order. -/
theorem holds (c : Comparison) (left right : Value) : ForValues (c.holds left right) := by
  have order (r : Number → Number → Bool) :
      ForValues (Comparison.holds.order left right r) := by
    unfold Comparison.holds.order
    split
    · exact ok _
    · exact error trivial
  cases c with
  | eq => exact ok _
  | ne => exact ok _
  | lt => exact order _
  | gt => exact order _
  | le => exact order _
  | ge => exact order _

/-! ## Arguments -/

section

variable (a : Arguments) (operation : String)

/-- There may be arguments where none are taken. -/
theorem expect_none : ForValues (a.expectNone operation) := by
  unfold Arguments.expectNone
  split
  · exact ok _
  · exact error trivial

/-- There may be too many arguments, or one with a key that is not taken. -/
theorem expect_at_most (most : Nat) (keys : List String) :
    ForValues (a.expectAtMost operation most keys) := by
  unfold Arguments.expectAtMost
  split
  · exact error trivial
  · split
    · exact error trivial
    · exact ok _

/-- An argument that is given may be no number. -/
theorem optional_number (position : Nat) (keys : List String) :
    ForValues (a.number? operation position keys) := by
  unfold Arguments.number?
  split
  · exact ok _
  · split
    · exact ok _
    · exact error trivial

/-- An argument with a default is a number that may be left out. -/
theorem default_number (position : Nat) (keys : List String) (default : Number) :
    ForValues (a.numberD operation position keys default) :=
  map _ (optional_number a operation position keys)

/-- A number may be missing. -/
theorem number (position : Nat) (keys : List String) :
    ForValues (a.number operation position keys) := by
  refine bind (optional_number a operation position keys) fun given => ?_
  cases given with
  | some x => exact ok x
  | none => exact error trivial

/-- An argument may be missing. -/
theorem required (position : Nat) (key : String) :
    ForValues (a.required operation position key) := by
  unfold Arguments.required
  split
  · exact ok _
  · exact error trivial

end

/-! ## Operations -/

section

variable (a : Arguments)

/-- A comparison takes two operands. -/
theorem operands (operation : String) : ForValues (Builtin.operands operation a) :=
  bind (expect_at_most a operation 2 []) fun _ => bind (number a operation 0 _) fun _ =>
    bind (number a operation 1 _) fun _ => ok _

/-- An observation may be missing, or something else. -/
theorem observed (operation : String) : ForValues (Builtin.observed operation a) := by
  refine bind (expect_at_most a operation 2 []) fun _ =>
    bind (required a operation 0 "observation") fun value => ?_
  cases value with
  | observation o => exact ok o
  | _ => exact error trivial

/-- A detection is picked from an observation by a number. -/
theorem detected (operation : String) : ForValues (Builtin.detected operation a) := by
  refine bind (observed a operation) fun o =>
    bind (default_number a operation 1 ["index"] 0) fun index => ?_
  split
  · exact error trivial
  · split
    · exact ok _
    · exact error trivial

/-- Whatever a builtin answers, it fails for its arguments only. -/
theorem answer (b : Builtin) : ForValues (b.answer a) := by
  cases b with
  | print => exact ok _
  | fail => exact error trivial
  | add => exact map _ (operands a "add")
  | sub => exact map _ (operands a "sub")
  | count => exact map _ (observed a "count")
  | label => exact map _ (detected a "label")
  | position => exact map _ (detected a "position")
  | confidence => exact map _ (detected a "confidence")

/-- A builtin fails for a value, or because the sink does not take its line. -/
theorem invoke {b : Builtin} {s : Sink} {cause : Cause} (h : (b.invoke a s).1 = .error cause) :
    cause.IsOfValue ∨ cause = .sinkClosed ∧ b = .print := by
  unfold Builtin.invoke at h
  split at h
  · exact .inl (answer a b cause h)
  · rename_i line hline
    split at h
    · exact .inl (answer a b cause h)
    · cases h
      cases b with
      | print => exact .inr ⟨rfl, rfl⟩
      | _ => cases hline

/-- A drive takes numbers and the name of a frame. -/
theorem go_to : ForValues (Binding.goTo a) :=
  bind (expect_at_most a "go_to" 5 _) fun _ => bind (number a "go_to" 0 _) fun _ =>
    bind (number a "go_to" 1 _) fun _ => bind (default_number a "go_to" 2 _ 0) fun _ =>
      bind (default_number a "go_to" 3 _ 1) fun _ => ok _

/-- The name of a window may be missing. -/
theorem show_frame : ForValues (Binding.showFrame a) :=
  bind (expect_at_most a "show_frame" 2 _) fun _ => ok _

/-- A delay is a number. -/
theorem wait_key : ForValues (Binding.waitKey a) := by
  refine bind (expect_at_most a "wait_key" 1 _) fun _ =>
    bind (default_number a "wait_key" 0 _ 0) fun delay => ?_
  split
  · exact ok _
  · exact error trivial

/-- Whatever a command of the robot is read from, it fails for its arguments only. -/
theorem reader {name : String} {read : Arguments → Except Cause Command}
    (h : Binding.reader? name = some read) : ForValues (read a) := by
  unfold Binding.reader? at h
  split at h
  · cases h
    exact map _ (expect_none a name)
  · split_ifs at h
    · cases h
      exact go_to a
    · cases h
      exact show_frame a
    · cases h
      exact wait_key a

end

end ForValues

/-- The operations of a bench fail for values, and `print` because the sink does not take its
line. -/
theorem Bench.operation_fails {σ : Type} {robot : Robot σ} {name : String}
    {act : Arguments → Bench σ → Except Cause Value × Bench σ}
    (h : operation? robot name = some act) {a : Arguments} {bench : Bench σ} {cause : Cause}
    (hfailed : (act a bench).1 = .error cause) :
    cause.IsOfValue ∨ cause = .sinkClosed ∧ name = "print" := by
  rcases operation_cases h with ⟨b, rfl, rfl⟩ | ⟨read, hread, rfl⟩
  · refine (ForValues.invoke a hfailed).imp_right fun ⟨hcause, hb⟩ => ⟨hcause, ?_⟩
    rw [hb]
    rfl
  · refine .inl ?_
    simp only [onRobot, Binding.run] at hfailed
    split at hfailed
    · rename_i hread'
      cases hfailed
      exact ForValues.reader a hread cause hread'
    · cases hfailed

/-- No operation of a bench fails for want of steps. -/
theorem Bench.operation_not_for_steps {σ : Type} {robot : Robot σ} {name : String}
    {act : Arguments → Bench σ → Except Cause Value × Bench σ}
    (h : operation? robot name = some act) (a : Arguments) (bench : Bench σ) :
    NotForSteps (act a bench).1 := by
  intro cause hfailed
  rcases operation_fails h hfailed with hvalue | ⟨rfl, -⟩
  · exact ForValues.not_for_steps (α := Value) (.error hvalue) cause rfl
  · exact id

end RobotBench
