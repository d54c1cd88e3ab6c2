import RobotBench.Proofs.Run.Order
import RobotBench.Proofs.Run.Recording
import RobotBench.Trial

/-!
# Operations and steps

Every operation that a script begins comes right after a step that was counted for it: `PaidFor`.
So a limit on steps limits the operations too, over the whole life of a run, and with them
the commands that reach the robot. `operations_within_steps` is the result.
-/

namespace RobotBench

/-- Every operation among the events comes right after a step. -/
def PaidFor (events : List Event) : Prop :=
  ∀ earlier name later, events = earlier ++ .operation name :: later →
    ∃ before, earlier = before ++ [.step]

namespace PaidFor

/-- Without operations there is nothing to pay for. -/
theorem of_none {events : List Event} (h : ∀ name, .operation name ∉ events) :
    PaidFor events := by
  rintro earlier name later rfl
  exact absurd (List.mem_append_right _ List.mem_cons_self) (h name)

theorem append {events more : List Event} (h : PaidFor events) (hmore : PaidFor more) :
    PaidFor (events ++ more) := by
  intro earlier name later hsplit
  -- the operation is among the second events, or the first, or it is at the seam, where it
  -- would be the first of the second events
  rcases List.append_eq_append_iff.1 hsplit with ⟨between, rfl, hsecond⟩ | ⟨between, rfl, hfirst⟩
  · obtain ⟨before, rfl⟩ := hmore between name later hsecond
    exact ⟨events ++ before, (List.append_assoc _ _ _).symm⟩
  · cases between with
    | nil =>
        obtain ⟨before, hbefore⟩ := hmore [] name later hfirst.symm
        exact absurd hbefore.symm (List.append_ne_nil_of_right_ne_nil _ (List.cons_ne_nil _ _))
    | cons first rest =>
        obtain ⟨rfl, -⟩ := List.cons.inj hfirst
        exact h earlier name rest rfl

end PaidFor

namespace Orderly

variable {calls blocks : Nat} {events : List Event}

/-- Events in order are paid for. -/
theorem paid_for (h : Orderly calls blocks events) : PaidFor events := by
  have hsingle (event : Event) (h : ∀ name, event ≠ .operation name) : PaidFor [event] :=
    .of_none fun name hmem => h name (List.mem_singleton.1 hmem).symm
  induction h with
  | nil => exact .of_none nofun
  | step _ ih => exact (hsingle .step nofun).append ih
  | operation name _ ih =>
      have hpaid : PaidFor [.step, .operation name] := by
        rintro (_ | ⟨first, _ | ⟨second, rest⟩⟩) other later heq
        · cases heq
        · cases heq
          exact ⟨[], rfl⟩
        · cases rest <;> cases heq
      exact hpaid.append ih
  | block _ _ ihinside ihrest =>
      exact ((hsingle .openBlock nofun).append ihinside).append
        ((hsingle .closeBlock nofun).append ihrest)
  | call name body _ _ ihinside ihrest =>
      exact ((hsingle (.enter name body) nofun).append ihinside).append
        ((hsingle (.exit name) nofun).append ihrest)

/-- Among events in order there are no more operations than steps. -/
theorem operations_le_steps (h : Orderly calls blocks events) :
    operationsIn events ≤ stepsIn events := by
  induction h with
  | nil => exact Nat.le_refl _
  | step _ ih => simp [Event.isStep, Event.isOperation]; omega
  | operation name _ ih => simp [Event.isStep, Event.isOperation]; omega
  | block _ _ ihinside ihrest => simp [Event.isStep, Event.isOperation]; omega
  | call name body _ _ ihinside ihrest => simp [Event.isStep, Event.isOperation]; omega

end Orderly

/-! ## Parts of statements that begin no operation -/

section

variable {ω : Type} (setting : Setting ω) (entry : Entry ω)

/-- Reading an operand leaves the machine alone. -/
theorem read_operand_machine (operand : Atom) (m : Machine ω) :
    (readOperand operand m).2 = m := by
  unfold readOperand
  rw [Exec.bind_ok (Exec.get_apply m)]
  cases plainValue m.names operand <;> rfl

/-- A comparison leaves the machine alone. -/
theorem compare_machine (left : Atom) (comparison : Comparison) (right : Atom)
    (m : Machine ω) : ((Condition.compare left comparison right).test setting entry m).2 = m := by
  have hleft := read_operand_machine left m
  have hright := read_operand_machine right m
  rw [Condition.test, Exec.bind_apply]
  rcases hx : readOperand left m with ⟨halt | x, m₁⟩
  · rwa [hx] at hleft
  · rw [hx] at hleft
    obtain rfl : m₁ = m := hleft
    simp only
    rw [Exec.bind_apply]
    rcases hy : readOperand right m₁ with ⟨halt | y, m₂⟩
    · rwa [hy] at hright
    · rw [hy] at hright
      obtain rfl : m₂ = m₁ := hright
      simp only
      cases comparison.holds x y <;> rfl

end

/-! ## Commands -/

variable {σ : Type}

/-- A robot operation gives the robot at most one command. -/
theorem Binding.commands_length_run (robot : Robot σ)
    (read : Arguments → Except Cause Command) (a : Arguments) (s : σ × List Command) :
    (Binding.run robot.recorded read a s).2.2.length ≤ s.2.length + 1 := by
  unfold run
  split
  · exact Nat.le_succ _
  · exact Nat.le_of_eq List.length_append

/-- The robot was given no more commands than operations were begun. -/
theorem command_account (robot : Robot σ) (maxSteps : Option Nat) :
    Account (Bench.setting robot.recorded maxSteps) fun m _ events m' =>
      m'.world.world.commands.length ≤ m.world.world.commands.length + operationsIn events where
  nothing _ _ _ hworld _ := Nat.le_of_eq (by rw [hworld]; rfl)
  append h h' := by
    rw [operations_in_append]
    omega
  failed _ _ _ _ h := h
  between {_ first last _ events _ _} hbrackets h := by
    have hoperations : operationsIn (first :: events ++ [last]) = operationsIn events := by
      cases hbrackets <;> simp [Event.isOperation]
    rw [hoperations]
    exact h
  step Inv m hm := by
    rcases count_step_cases (Bench.setting robot.recorded maxSteps).logged m with
      ⟨_, hcount⟩ | ⟨_, _, _, hcount⟩
    · rw [hcount]
      exact ⟨hm, [.step], rfl, Nat.le_refl _⟩
    · rw [hcount]
      exact ⟨hm, [], (List.append_nil _).symm, Nat.le_refl _⟩
  operation Inv name act arguments hact m hm := by
    obtain ⟨act₀, hact₀, rfl⟩ := Option.map_eq_some_iff.1 hact
    rw [run_operation_apply]
    refine ⟨hm, [.operation name], rfl, ?_⟩
    show (act₀ arguments m.world.world).2.commands.length ≤ m.world.world.commands.length + 1
    rcases Bench.operation_cases hact₀ with ⟨b, -, rfl⟩ | ⟨read, _, rfl⟩
    · exact Nat.le_succ _
    · exact Binding.commands_length_run robot read arguments _

/-! ## Trials -/

/-- A trial that succeeds has run its script and its entry point. -/
theorem Trial.run_ok {robot : Robot σ} {maxSteps : Option Nat} {entryPoint : Option String}
    {payload : Payload} {bench : Bench σ} {m : Machine (Bench σ)}
    (h : Trial.run robot maxSteps entryPoint payload bench = (.ok (), m)) :
    ∃ script, Script.ofText payload.text payload.firstLine = .ok script ∧
      runScript (Bench.setting robot maxSteps) script entryPoint ⟨bench, .empty, 0⟩ =
        (.ok (), m) := by
  unfold Trial.run at h
  split at h
  · cases h
  · rename_i script hscript
    refine ⟨script, hscript, ?_⟩
    dsimp only at h
    rcases hrun : runScript (Bench.setting robot maxSteps) script entryPoint
      ⟨bench, .empty, 0⟩ with ⟨_ | _, _⟩
    · rw [hrun] at h
      cases h
    · rw [hrun] at h
      cases h
      rfl

/-- A trial that succeeds stays within its limit, the entry point included. -/
theorem Trial.run_within {robot : Robot σ} {limit : Nat} {entryPoint : Option String}
    {payload : Payload} {bench : Bench σ} {m : Machine (Bench σ)}
    (h : Trial.run robot (some limit) entryPoint payload bench = (.ok (), m)) :
    m.steps ≤ limit := by
  obtain ⟨script, -, hrun⟩ := run_ok h
  have sim := (tally_account (Bench.setting robot (some limit))).simulation
  unfold runScript at hrun
  rw [Exec.bind_apply] at hrun
  rcases hscript : script.run (Bench.setting robot (some limit)) ⟨bench, .empty, 0⟩ with
    ⟨_ | _, m₁⟩
  · rw [hscript] at hrun
    cases hrun
  · have hfirst := (logged_run (Bench.setting robot (some limit)) script).within rfl
      (sim.script script fun _ _ _ _ _ => trivial) hscript (Nat.zero_le limit)
    rw [hscript] at hrun
    cases entryPoint with
    | none =>
        cases hrun
        exact hfirst
    | some name =>
        simp only [Exec.bind_apply] at hrun
        rcases hcall : callProcedure (Bench.setting robot (some limit)) name m₁ with
          ⟨_ | value, m₂⟩
        · rw [hcall] at hrun
          cases hrun
        · rw [hcall] at hrun
          cases hrun
          exact (logged_call (Bench.setting robot (some limit)) name).within rfl
            (sim.call_procedure name) hcall hfirst

/-! ## Lifetimes -/

/-- Over a whole life of a run, whatever becomes of the script and the calls after it, every
operation comes right after a step of its own. So operations are no more than steps, which
are no more than the limit, and the robot gets no more commands than that. Arguments and the
sides of comparisons are read without calling anything, so they begin no operation. A trial
that succeeds has taken no more steps than the limit, its entry point included. -/
theorem operations_within_steps (robot : Robot σ) (limit : Nat) (script : Script)
    (calls : List String) (state : σ) (sink : Sink) (names : Namespace) :
    let setting := Bench.setting robot.recorded (some limit)
    let bench : Bench (σ × List Command) := ⟨(state, []), sink⟩
    let after := lifetime (script.run setting.logged) (callProcedure setting.logged) calls
      ⟨⟨bench, []⟩, names, 0⟩
    lifetime (script.run setting) (callProcedure setting) calls ⟨bench, names, 0⟩ =
        after.project Logged.world ∧
      after.world.world.commands.length ≤ operationsIn after.world.log ∧
      operationsIn after.world.log ≤ stepsIn after.world.log ∧
      stepsIn after.world.log ≤ limit ∧ PaidFor after.world.log ∧
      (∀ entry (c : Call) (m : Machine (Bench (σ × List Command))),
        c.run setting entry m = match gather m.names c.arguments .none with
          | .ok arguments => callNamed setting entry c.name arguments m
          | .error cause => (.error (.fault ⟨[], cause⟩), m)) ∧
      (∀ entry left comparison right (m : Machine (Bench (σ × List Command))),
        ((Condition.compare left comparison right).test setting entry m).2 = m) ∧
      ∀ entryPoint payload bench m,
        Trial.run robot (some limit) entryPoint payload bench = (.ok (), m) → m.steps ≤ limit := by
  intro setting bench after
  -- some bound holds for the blocks in the script and in the bodies that are bound before
  obtain ⟨bound, hscript, hnames⟩ := names.exists_nesting (nodesNesting script)
  have horder := lifetime_orderly setting script (Nat.le_succ_of_le hscript) calls
    (m := ⟨⟨bench, []⟩, names, 0⟩) hnames rfl
  refine ⟨?_, ?_, horder.operations_le_steps, lifetime_within setting rfl script calls rfl,
    horder.paid_for, fun entry => call_run_apply setting entry,
    fun entry => compare_machine setting entry, fun _ _ _ _ => Trial.run_within⟩
  · exact Projected.lifetime (logged_run setting script) (logged_call setting) calls
      ⟨⟨bench, []⟩, names, 0⟩
  · refine (command_account robot (some limit)).lifetime (Q := fun m =>
      m.world.world.commands.length ≤ operationsIn m.world.log) ?_ script calls (Nat.le_refl _)
    intro _ m result events m' hadded hcommands hm
    rw [hadded, operations_in_append]
    omega

end RobotBench
