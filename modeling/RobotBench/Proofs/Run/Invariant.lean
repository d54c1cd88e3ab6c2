import RobotBench.Proofs.Run.Simulation

/-!
# What every run does to a machine

A relation of machines that is reflexive and transitive, and that every single change which runs
make is in, relates the machines before and after every part of a run: `Setting.Respects`. One
such relation is that an invariant of the world is kept. Scripts reach their world through the
operations and the watch of their host only. So what each of these keeps true of the world, every
run keeps true: `invariant_simulation`.
-/

namespace RobotBench

variable {ω : Type}

/-- A relation of machines that every change which a run makes is in. -/
structure Setting.Respects (setting : Setting ω) (R : Machine ω → Machine ω → Prop) : Prop where
  refl (m : Machine ω) : R m m
  trans {first second third : Machine ω} : R first second → R second third → R first third
  watch (event : Event) (m : Machine ω) : R m (m.watched setting.host event)
  count (m : Machine ω) : R m { m with steps := m.steps + 1 }
  assign (name : String) (value : Value) (m : Machine ω) :
    R m { m with names := m.names.assign name value }
  define (name : String) (body : List Node) (m : Machine ω) :
    R m { m with names := m.names.define name body }
  operation {name : String} {act : Arguments → ω → Except Cause Value × ω} :
    setting.host.operation? name = some act → ∀ arguments (m : Machine ω),
      R m { m with world := (act arguments m.world).2 }

/-- The machine after the execution is related to the one before it. -/
def Exec.Leads (R : Machine ω → Machine ω → Prop) {α : Type} (x : Exec ω α) : Prop :=
  ∀ m, R m (x m).2

/-- Where an execution has led. -/
theorem Exec.Leads.related {R : Machine ω → Machine ω → Prop} {α : Type} {x : Exec ω α}
    (hx : x.Leads R) {m m' : Machine ω} {r : Except Halt α} (h : x m = (r, m')) : R m m' := by
  have hafter := hx m
  rwa [h] at hafter

namespace Setting.Respects

variable {setting : Setting ω} {R : Machine ω → Machine ω → Prop} (h : setting.Respects R)
  {α β : Type}
include h

/-- What does nothing leaves the machine, to which it is related. -/
theorem pure (a : α) : (pure a : Exec ω α).Leads R := h.refl

/-- One execution after another leads where the two of them do. -/
theorem bind {x : Exec ω α} {f : α → Exec ω β} (hx : x.Leads R) (hf : ∀ a, (f a).Leads R) :
    (x >>= f).Leads R := by
  intro m
  rw [Exec.bind_apply]
  rcases hrun : x m with ⟨halt | a, m₁⟩
  · exact hx.related hrun
  · exact h.trans (hx.related hrun) (hf a m₁)

omit h in
/-- A frame is put on the path of a failure only. -/
theorem under {x : Exec ω α} (hx : x.Leads R) (frame : Frame) : (x.under frame).Leads R := by
  intro m
  rw [Exec.under_apply]
  exact hx m

/-- What is watched before and after an execution is related as well. -/
theorem between {x : Exec ω α} (hx : x.Leads R) (first last : Event) :
    (Exec.between setting.host first last x).Leads R := by
  intro m
  rw [Exec.between_apply]
  exact h.trans (h.watch first m) (h.trans (hx _) (h.watch last _))

/-- A step is counted, and watched if the limit allows it. -/
theorem step : (countStep setting).Leads R := by
  intro m
  rcases count_step_cases setting m with ⟨-, hcount⟩ | ⟨limit, -, -, hcount⟩
  · rw [hcount]
    exact h.trans (h.count m) (h.watch .step _)
  · rw [hcount]
    exact h.count m

/-- A loop leads where its rounds do. -/
theorem whilst {test : Exec ω Bool} {body : Exec ω Flow} {pause : Exec ω Unit}
    (htest : test.Leads R) (hbody : body.Leads R) (hpause : pause.Leads R) (rounds : Nat) :
    (Exec.whilst test body pause rounds).Leads R :=
  @Exec.whilst_related _ _ (fun x _ => Exec.Leads R x) h.pure h.bind h.refl test test body body
    pause pause htest hbody hpause rounds

/-- All parts of a run lead from a machine to a related one. -/
theorem simulation : Simulation setting setting (fun _ => True) fun x _ => Exec.Leads R x where
  pure := h.pure
  bind := h.bind
  fail _ := h.refl
  under frame _ _ hx := under hx frame
  block hx := h.between hx _ _
  procedure _ _ _ _ hx := h.between hx _ _
  names hf m := hf m m rfl (fun _ _ _ => trivial) m
  assign := h.assign
  define name body _ := h.define name body
  step := h.step
  operation? _ := rfl
  operation {name _ _} arguments hact _ m := by
    rw [run_operation_apply]
    exact h.trans (h.watch (.operation name) m) (h.operation hact arguments _)
  whilst htest hbody := h.whilst htest hbody h.step _
  nested _ _ _ _ _ _ := trivial

/-- A repetition leads where its body does. -/
theorem times {body : Exec ω Flow} (hbody : body.Leads R) (count : Nat) :
    (Exec.times body count).Leads R :=
  @PartSimulation.times _ _ _ _ _ _ h.simulation.toPartSimulation body body hbody count

/-! ### The parts of a run -/

section

variable (depth : Nat)

/-- Nodes lead to a related machine, with procedures that may still become active. -/
theorem nodes (list : List Node) : (runNodes setting (enter setting depth) list).Leads R :=
  h.simulation.nodes_at depth list

/-- A block leads to a related machine. -/
theorem block (body : List Node) :
    (inBlock setting (runNodes setting (enter setting depth) body)).Leads R :=
  h.simulation.block_at depth body

/-- A statement leads to a related machine. -/
theorem statement (s : Statement) : (s.run setting (enter setting depth)).Leads R :=
  h.simulation.statement_at depth s

/-- A statement with its step leads to a related machine. -/
theorem node (node : Node) : (node.run setting (enter setting depth)).Leads R :=
  h.simulation.node_at depth node

/-- The test of a condition leads to a related machine. -/
theorem test (c : Condition) : (c.test setting (enter setting depth)).Leads R :=
  h.simulation.test_at depth c

/-- Reading the count of a repetition leads to a related machine. -/
theorem read_count (operand : Atom) :
    (readCount setting (enter setting depth) operand).Leads R :=
  h.simulation.read_count_at depth operand

end

end Setting.Respects

/-! ## Invariants of the world -/

variable {Inv : ω → Prop}

/-- Every operation of the host, and its watch, keeps the invariant. -/
structure Host.Keeps (host : Host ω) (Inv : ω → Prop) : Prop where
  watch {event : Event} {world : ω} : Inv world → Inv (host.watch event world)
  operation {name : String} {act : Arguments → ω → Except Cause Value × ω} :
    host.operation? name = some act →
      ∀ arguments world, Inv world → Inv (act arguments world).2

/-- The execution keeps the invariant of the world. -/
def Exec.Preserves (Inv : ω → Prop) {α : Type} (x : Exec ω α) : Prop :=
  ∀ m, Inv m.world → Inv (x m).2.world

/-- What a host keeps true of the world, every change keeps true. -/
theorem Host.Keeps.respects {setting : Setting ω} (h : setting.host.Keeps Inv) :
    setting.Respects fun m m' => Inv m.world → Inv m'.world where
  refl _ hm := hm
  trans hfirst hsecond hm := hsecond (hfirst hm)
  watch _ _ hm := h.watch hm
  count _ hm := hm
  assign _ _ _ hm := hm
  define _ _ _ hm := hm
  operation hact arguments m hm := h.operation hact arguments m.world hm

/-- What a host keeps true of the world, all parts of a run keep true. -/
theorem invariant_simulation (setting : Setting ω) (h : setting.host.Keeps Inv) :
    Simulation setting setting (fun _ => True) fun x _ => Exec.Preserves Inv x :=
  h.respects.simulation

/-- A script keeps what its host keeps true of the world. -/
theorem script_preserves (setting : Setting ω) (h : setting.host.Keeps Inv) (script : Script) :
    (script.run setting).Preserves Inv :=
  (invariant_simulation setting h).script script fun _ _ _ _ _ => trivial

end RobotBench
