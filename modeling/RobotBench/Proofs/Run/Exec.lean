import RobotBench.Script.Meaning

/-!
# Laws of executions

What the parts of an execution do to a machine, one equation a part, and the loops as
equations between executions: `times_succ`, `whilst_succ`, `forever_eq_whilst`. What a call comes
to is an equation for each thing that a name may stand for. Statements about what scripts do rest
on these and do not open the monad again.
-/

namespace RobotBench

/-- An early stop seen from one step further out. -/
def Halt.under (frame : Frame) : Halt → Halt
  | .fault f => .fault (f.under frame)
  | .endless => .endless

/-- The machine after its host has watched an event. -/
def Machine.watched {ω : Type} (host : Host ω) (event : Event) (m : Machine ω) : Machine ω :=
  { m with world := host.watch event m.world }

namespace Exec

variable {ω α β : Type}

/-! ## Parts -/

theorem pure_apply (a : α) (m : Machine ω) : (pure a : Exec ω α) m = (.ok a, m) := rfl

theorem bind_apply (x : Exec ω α) (f : α → Exec ω β) (m : Machine ω) :
    (x >>= f) m = match x m with
      | (.ok a, m) => f a m
      | (.error halt, m) => (.error halt, m) := by
  -- the two layers of the monad are opened here, and nowhere else
  show ExceptT.bindCont f (x m).1 (x m).2 = _
  rcases x m with ⟨r, m'⟩
  cases r <;> rfl

/-- After a value the next execution goes on from where the first has led. -/
theorem bind_ok {x : Exec ω α} {f : α → Exec ω β} {m m' : Machine ω} {a : α}
    (h : x m = (.ok a, m')) : (x >>= f) m = f a m' := by
  rw [bind_apply, h]

/-- After a halt nothing is done. -/
theorem bind_error {x : Exec ω α} {f : α → Exec ω β} {m m' : Machine ω} {halt : Halt}
    (h : x m = (.error halt, m')) : (x >>= f) m = (.error halt, m') := by
  rw [bind_apply, h]

theorem get_apply (m : Machine ω) : (get : Exec ω (Machine ω)) m = (.ok m, m) := rfl

theorem modify_apply (change : Machine ω → Machine ω) (m : Machine ω) :
    (modify change : Exec ω Unit) m = (.ok (), change m) := rfl

/-- A step on the path to a fault changes nothing but the fault. -/
theorem under_apply (frame : Frame) (x : Exec ω α) (m : Machine ω) :
    x.under frame m = ((x m).1.mapError (·.under frame), (x m).2) := by
  unfold under
  rcases x m with ⟨halt | a, m'⟩
  · cases halt <;> rfl
  · rfl

theorem between_apply (host : Host ω) (first last : Event) (x : Exec ω α) (m : Machine ω) :
    between host first last x m =
      ((x (m.watched host first)).1, (x (m.watched host first)).2.watched host last) := rfl

/-- A host that watches nothing does not see an execution begin or end. -/
theorem between_unwatched {host : Host ω} (h : ∀ event world, host.watch event world = world)
    (first last : Event) (x : Exec ω α) : between host first last x = x := by
  funext m
  unfold between
  rw [h]
  rcases x m with ⟨result, m'⟩
  show (result, { m' with world := host.watch last m'.world }) = (result, m')
  rw [h]

/-! ## Loops -/

/-- A repetition begins with its body. -/
theorem times_succ (body : Exec ω Flow) (count : Nat) :
    times body (count + 1) = body >>= fun
      | .next => times body count
      | .leave => pure .next
      | .answer value => pure (.answer value) := by
  funext m
  rw [bind_apply, times]
  rcases body m with ⟨r, m'⟩
  rcases r with halt | flow
  · rfl
  · cases flow <;> rfl

/-- A loop begins with its test. -/
theorem whilst_succ (test : Exec ω Bool) (body : Exec ω Flow) (pause : Exec ω Unit)
    (rounds : Nat) :
    whilst test body pause (rounds + 1) = test >>= fun
      | true => body >>= fun
        | .next => pause >>= fun _ => whilst test body pause rounds
        | .leave => pure .next
        | .answer value => pure (.answer value)
      | false => pure .next := by
  funext m
  rw [bind_apply, whilst]
  rcases test m with ⟨r, m'⟩
  rcases r with halt | holds
  · rfl
  · cases holds with
    | false => rfl
    | true =>
        simp only [bind_apply]
        rcases body m' with ⟨_ | flow, m''⟩
        · rfl
        · cases flow with
          | next =>
              simp only [bind_apply]
              rcases pause m'' with ⟨_ | _, _⟩ <;> rfl
          | leave => rfl
          | answer value => rfl

/-- A loop without a test is one whose test always holds. -/
theorem forever_eq_whilst (body : Exec ω Flow) (pause : Exec ω Unit) (rounds : Nat) :
    forever body pause rounds = whilst (pure true) body pause rounds := by
  induction rounds with
  | zero => rfl
  | succ rounds ih =>
      funext m
      rw [forever, whilst, pure_apply, ih]

end Exec

/-! ## Steps -/

section

variable {ω : Type} {setting : Setting ω} {m : Machine ω}

/-- A step that the limit allows is counted. -/
theorem count_step_ok (h : ∀ limit, setting.maxSteps = some limit → m.steps < limit) :
    countStep setting m =
      (.ok (), ⟨setting.host.watch .step m.world, m.names, m.steps + 1⟩) := by
  unfold countStep
  rw [Exec.bind_ok (Exec.modify_apply _ m)]
  cases hlimit : setting.maxSteps with
  | none => rfl
  | some limit =>
      have hroom : ¬ limit < m.steps + 1 := Nat.not_lt.2 (h limit hlimit)
      simp only
      rw [Exec.bind_ok (Exec.get_apply _), if_neg hroom]
      rfl

/-- The first step past the limit is counted too, and fails. -/
theorem count_step_over {limit : Nat} (hlimit : setting.maxSteps = some limit)
    (h : limit ≤ m.steps) :
    countStep setting m =
      (.error (.fault ⟨[], .stepLimit limit⟩), { m with steps := m.steps + 1 }) := by
  have hover : limit < m.steps + 1 := Nat.lt_succ_of_le h
  unfold countStep
  rw [Exec.bind_ok (Exec.modify_apply _ m), hlimit]
  simp only
  rw [Exec.bind_ok (Exec.get_apply _), if_pos hover]
  rfl

/-- Counting a step either is allowed and succeeds, or is not and fails. -/
theorem count_step_cases (setting : Setting ω) (m : Machine ω) :
    ((∀ limit, setting.maxSteps = some limit → m.steps < limit) ∧ countStep setting m =
      (.ok (), ⟨setting.host.watch .step m.world, m.names, m.steps + 1⟩)) ∨
    ∃ limit, setting.maxSteps = some limit ∧ limit ≤ m.steps ∧ countStep setting m =
      (.error (.fault ⟨[], .stepLimit limit⟩), { m with steps := m.steps + 1 }) := by
  by_cases hroom : ∀ limit, setting.maxSteps = some limit → m.steps < limit
  · exact .inl ⟨hroom, count_step_ok hroom⟩
  · obtain ⟨limit, hnot⟩ := Classical.not_forall.1 hroom
    obtain ⟨hlimit, hover⟩ := Classical.not_imp.1 hnot
    have hover := Nat.le_of_not_lt hover
    exact .inr ⟨limit, hlimit, hover, count_step_over hlimit hover⟩

/-- Counting a step leaves the names alone. -/
theorem count_step_names (setting : Setting ω) (m : Machine ω) :
    (countStep setting m).2.names = m.names := by
  rcases count_step_cases setting m with ⟨_, hcount⟩ | ⟨limit, _, _, hcount⟩
  · rw [hcount]
  · rw [hcount]

end

/-! ## Operations and calls -/

/-- A procedure may be called. -/
theorem callable_of_find {names : Namespace} {name : String} {body : List Node}
    (h : names.procedures.find? name = some body) : isCallable names name := by
  simp [isCallable, Table.contains, h]

/-- An operation acts on the world alone, and its failure has no path yet. -/
theorem run_operation_apply {ω : Type} (setting : Setting ω) (name : String)
    (act : Arguments → ω → Except Cause Value × ω) (arguments : Arguments) (m : Machine ω) :
    runOperation setting name act arguments m =
      ((act arguments (setting.host.watch (.operation name) m.world)).1.mapError
          fun cause => .fault ⟨[], cause⟩,
        { m with
          world := (act arguments (setting.host.watch (.operation name) m.world)).2 }) := by
  unfold runOperation Exec.notice
  rw [Exec.bind_ok (Exec.modify_apply _ m), Exec.bind_ok (Exec.get_apply _)]
  rcases act arguments (setting.host.watch (.operation name) m.world) with ⟨result, world⟩
  cases result <;> rfl

section

variable {ω : Type} (setting : Setting ω) (entry : Entry ω) {name : String} {m : Machine ω}

/-- A call of a procedure does not ask for operations of the name. -/
theorem call_named_procedure {body : List Node} (h : m.names.procedures.find? name = some body)
    (arguments : Arguments) :
    callNamed setting entry name arguments m =
      if arguments.isEmpty then entry name body m
      else (.error (.fault ⟨[], .procedureArguments name⟩), m) := by
  rw [callNamed, Exec.bind_ok (Exec.get_apply m), h]
  simp only
  split
  · rfl
  · rfl

/-- Where no procedure has the name, the operation is run. -/
theorem call_named_operation (h : m.names.procedures.find? name = none)
    {act : Arguments → ω → Except Cause Value × ω} (hact : setting.host.operation? name = some act)
    (arguments : Arguments) :
    callNamed setting entry name arguments m = runOperation setting name act arguments m := by
  rw [callNamed, Exec.bind_ok (Exec.get_apply m), h, hact]

/-- A name that neither a procedure nor an operation has is unknown. -/
theorem call_named_none (h : m.names.procedures.find? name = none)
    (hact : setting.host.operation? name = none) (arguments : Arguments) :
    callNamed setting entry name arguments m =
      (.error (.fault ⟨[], .unknownOperation name⟩), m) := by
  rw [callNamed, Exec.bind_ok (Exec.get_apply m), h, hact]
  rfl

/-- A word in the place of an expression is called if it may be, and is text otherwise. -/
theorem evaluate_word (text : String) (m : Machine ω) :
    evaluate setting entry (.word text) m =
      if isCallable m.names text then callNamed setting entry text .none m
      else (.ok (.text text), m) := by
  rw [evaluate, Exec.bind_ok (Exec.get_apply m)]
  split
  · rfl
  · rfl

/-- A call reads its arguments, which leaves the machine alone, before anything is called. -/
theorem call_run_apply (c : Call) (m : Machine ω) :
    c.run setting entry m = match gather m.names c.arguments .none with
      | .ok arguments => callNamed setting entry c.name arguments m
      | .error cause => (.error (.fault ⟨[], cause⟩), m) := by
  unfold Call.run
  rw [Exec.bind_ok (Exec.get_apply m), Exec.bind_apply]
  cases gather m.names c.arguments .none <;> rfl

end

end RobotBench
