import RobotBench.Proofs.Run.Simulation
import RobotBench.Trial

/-!
# What runs bind

Only `let` and `def` bind names. `Exec.Writes` says of an execution that it binds variables and
procedures of given names only; a body whose statements bind no other names calls procedures whose
bodies bind no other names, and defines none whose body does, so that this is kept through calls
and definitions (`writes_simulation`). `only_let_and_def_bind` takes the names to be those that the
script and the bodies present at its start bind.
-/

namespace RobotBench

/-- The bodies that nodes define have no statements but those of the nodes. -/
theorem EveryStatement.defines {Allowed : Statement → Prop} {nodes : List Node}
    (h : EveryStatement Allowed nodes) : DefinesOnly (EveryStatement Allowed) nodes := by
  intro node hnode name body hdefine inner hinner
  have hnested := preorder_within nodes node hnode
  rw [hdefine] at hnested
  exact h inner (hnested hinner)

/-! ## Tables -/

/-- The second table has the bindings of the first one but for some names, of which it may bind
more. -/
structure Table.Extends {α : Type} (May : String → Prop) (before after : Table α) : Prop where
  bound {name : String} : before.contains name → after.contains name
  kept {name : String} : ¬ May name → after.find? name = before.find? name

namespace Table.Extends

variable {α : Type} {May : String → Prop} {first second third : Table α}

theorem refl (table : Table α) : table.Extends May table := ⟨id, fun _ => rfl⟩

theorem trans (h : first.Extends May second) (h' : second.Extends May third) :
    first.Extends May third where
  bound hname := h'.bound (h.bound hname)
  kept hname := (h'.kept hname).trans (h.kept hname)

theorem set (table : Table α) {name : String} (hname : May name) (value : α) :
    table.Extends May (table.set name value) where
  bound {other} hother := by
    by_cases heq : other = name
    · rw [heq, contains, find?_set_self]
      rfl
    · rwa [contains, find?_set_of_ne table value heq]
  kept {other} hother := by
    refine find?_set_of_ne table value ?_
    rintro rfl
    exact hother hname

/-- A name that is bound in the second table only is one of the names. -/
theorem added (h : first.Extends May second) {name : String} (hnew : second.contains name)
    (hold : ¬ first.contains name) : May name := by
  refine Classical.byContradiction fun hname => hold ?_
  rwa [contains, h.kept hname] at hnew

end Table.Extends

/-! ## Executions that bind some names only -/

/-- Which variables may be assigned and which procedures may be defined. -/
structure Writable where
  values : String → Prop
  procedures : String → Prop

namespace Writable

variable (w : Writable)

/-- The statement binds no other name. -/
def Covers : Statement → Prop
  | .assign name _ => w.values name
  | .define name _ => w.procedures name
  | _ => True

/-- The nodes and all that is nested in them bind no other name. -/
def CoversAll (nodes : List Node) : Prop := EveryStatement w.Covers nodes

end Writable

/-- The execution binds no other names, and defines no body that would. -/
def Exec.Writes {ω α : Type} (w : Writable) (x : Exec ω α) : Prop :=
  ∀ m, m.names.AllBodies w.CoversAll →
    m.names.values.Extends w.values (x m).2.names.values ∧
    m.names.procedures.Extends w.procedures (x m).2.names.procedures ∧
    (x m).2.names.AllBodies w.CoversAll

namespace Exec.Writes

variable {ω α β : Type} {w : Writable}

/-- An execution that leaves the names alone. -/
theorem of_names {x : Exec ω α} (h : ∀ m, (x m).2.names = m.names) : x.Writes w := by
  intro m hm
  rw [h]
  exact ⟨.refl _, .refl _, hm⟩

theorem bind {x : Exec ω α} {f : α → Exec ω β} (hx : x.Writes w) (hf : ∀ a, (f a).Writes w) :
    (x >>= f).Writes w := by
  intro m hm
  obtain ⟨hvalues, hprocedures, hbodies⟩ := hx m hm
  rw [Exec.bind_apply]
  rcases hrun : x m with ⟨halt | a, m₁⟩
  · rw [hrun] at hvalues hprocedures hbodies
    exact ⟨hvalues, hprocedures, hbodies⟩
  · rw [hrun] at hvalues hprocedures hbodies
    obtain ⟨hvalues', hprocedures', hbodies'⟩ := hf a m₁ hbodies
    exact ⟨hvalues.trans hvalues', hprocedures.trans hprocedures', hbodies'⟩

theorem between {x : Exec ω α} (hx : x.Writes w) (host : Host ω) (first last : Event) :
    (Exec.between host first last x).Writes w := by
  intro m hm
  rw [Exec.between_apply]
  exact hx (m.watched host first) hm

theorem under {x : Exec ω α} (hx : x.Writes w) (frame : Frame) : (x.under frame).Writes w := by
  intro m hm
  rw [Exec.under_apply]
  exact hx m hm

theorem assign {name : String} (hname : w.values name) (value : Value) :
    (modify fun m => { m with names := m.names.assign name value } : Exec ω Unit).Writes w :=
  fun m hm => ⟨.set m.names.values hname value, .refl _, hm⟩

theorem define {name : String} {body : List Node} (hname : w.procedures name)
    (hbody : w.CoversAll body) :
    (modify fun m => { m with names := m.names.define name body } : Exec ω Unit).Writes w :=
  fun m hm => ⟨.refl _, .set m.names.procedures hname body, hm.define name hbody⟩

end Exec.Writes

/-- Statements that bind no other names, and define no bodies that would, make executions that do
not either, as long as no body in the names would. -/
theorem writes_simulation {ω : Type} (setting : Setting ω) (w : Writable) :
    WriteSimulation setting setting (fun s => w.Covers s ∧ s.Defines w.CoversAll) w.CoversAll
      fun x _ => Exec.Writes w x where
  pure _ := .of_names fun _ => rfl
  bind hx hf := hx.bind hf
  fail _ := .of_names fun _ => rfl
  under frame _ _ hx := hx.under frame
  block hx := hx.between _ _ _
  names hf m hm := hf m m rfl hm m hm
  assign value h := .assign h.1 value
  define h := .define h.1 (h.2 _ _ rfl)
  step := .of_names (count_step_names setting)
  operation? _ := rfl
  operation _ _ _ := .of_names fun m => by rw [run_operation_apply]
  whilst {test test' body body'} htest hbody :=
    @Exec.whilst_related _ _ (fun x _ => Exec.Writes w x) (fun _ => .of_names fun _ => rfl)
      (fun hx hf => hx.bind hf) (.of_names fun _ => rfl) test test' body body' _
      (countStep setting) htest hbody (.of_names (count_step_names setting)) _
  nested h node hnode := ⟨h node hnode, h.defines node hnode⟩

/-! ## Runs -/

/-- A script and its entry point bind no other names when neither the script nor any body that is
there at the start binds another one. -/
theorem Trial.run_script_writes {σ : Type} (setting : Setting (Bench σ)) {w : Writable}
    {script : Script} (hscript : w.CoversAll script) (entryPoint : Option String) :
    (Trial.runScript setting script entryPoint).Writes w := by
  have sim := writes_simulation setting w
  have hprocedure {α : Type} (name : String) (body : List Node) {x x' : Exec (Bench σ) α}
      (hx : x.Writes w) :
      (Exec.between setting.host (.enter name body) (.exit name) x).Writes w :=
    hx.between _ _ _
  have hrun := sim.script hprocedure script fun node hnode =>
    ⟨hscript node hnode, hscript.defines node hnode⟩
  refine hrun.bind fun _ => ?_
  cases entryPoint with
  | none => exact .of_names fun _ => rfl
  | some name => exact (sim.call_procedure hprocedure name).bind fun _ => .of_names fun _ => rfl

/-- The statement is one of the script or of a body that the names have, however deep. -/
def StatementOccurs (script : Script) (names : Namespace) (s : Statement) : Prop :=
  (∃ node ∈ preorder script, node.statement = s) ∨
    ∃ name body, names.procedures.find? name = some body ∧
      ∃ node ∈ preorder body, node.statement = s

/-- Only `let` and `def` write the names. However a script and its entry point end, and whatever
the setting and the names at the start, every name that was bound is bound afterwards; a variable
has the value it had, or none, unless a `let` of it occurs in the script or in a body of a
procedure at the start; a procedure has the body it had unless a `def` of it occurs there; and
each name that is newly bound is the name of such a `let` or `def`. -/
theorem only_let_and_def_bind {σ : Type} (setting : Setting (Bench σ)) (script : Script)
    (entryPoint : Option String) (m : Machine (Bench σ)) :
    let after := (Trial.runScript setting script entryPoint m).2.names
    let assigned (name : String) := ∃ right, StatementOccurs script m.names (.assign name right)
    let defined (name : String) := ∃ body, StatementOccurs script m.names (.define name body)
    (∀ name, m.names.values.contains name → after.values.contains name) ∧
    (∀ name, m.names.procedures.contains name → after.procedures.contains name) ∧
    (∀ name, ¬ assigned name → after.values.find? name = m.names.values.find? name) ∧
    (∀ name, ¬ defined name → after.procedures.find? name = m.names.procedures.find? name) ∧
    (∀ name, after.values.contains name → ¬ m.names.values.contains name → assigned name) ∧
    ∀ name, after.procedures.contains name → ¬ m.names.procedures.contains name →
      defined name := by
  intro after assigned defined
  let w : Writable := ⟨assigned, defined⟩
  have hcovers (s : Statement) (h : StatementOccurs script m.names s) : w.Covers s := by
    cases s with
    | assign name right => exact ⟨right, h⟩
    | define name body => exact ⟨body, h⟩
    | _ => trivial
  have hscript : w.CoversAll script := fun node hnode => hcovers _ (.inl ⟨node, hnode, rfl⟩)
  have hbodies : m.names.AllBodies w.CoversAll := fun name body hfind node hnode =>
    hcovers _ (.inr ⟨name, body, hfind, node, hnode, rfl⟩)
  obtain ⟨hvalues, hprocedures, -⟩ :=
    Trial.run_script_writes setting hscript entryPoint m hbodies
  exact ⟨fun _ => hvalues.bound, fun _ => hprocedures.bound, fun _ => hvalues.kept,
    fun _ => hprocedures.kept, fun _ => hvalues.added, fun _ => hprocedures.added⟩

/-- A script that fails after it has called a procedure that was there before and binds `y`. -/
theorem only_let_and_def_bind_failing :
    let names := (Namespace.empty.assign "z" (.text "old")).define "g"
      [.mk 7 (.assign "y" (.atom (.literal (.bool true))))]
    let script : Script := [.mk 1 (.assign "x" (.atom (.literal .nil))), .mk 2 (.call ⟨"g", []⟩),
      .mk 3 (.call ⟨"fail", [⟨none, .word "now"⟩]⟩)]
    let run := Trial.runScript (Bench.setting Simulator.robot (some 9)) script none
      ⟨⟨.ofSeed 1, .unbounded⟩, names, 0⟩
    run.1 = .error (.fault ⟨[.line 3], .failed "now"⟩) ∧ run.2.names.values.contains "z" ∧
      run.2.names.values.find? "z" = some (.text "old") ∧
      (run.2.names.procedures.find? "g").isSome ∧
      ∃ right, StatementOccurs script names (.assign "y" right) := by
  intro names script run
  obtain ⟨hvalues, -, hkept, hsame, hnew, -⟩ := only_let_and_def_bind
    (Bench.setting Simulator.robot (some 9)) script none ⟨⟨.ofSeed 1, .unbounded⟩, names, 0⟩
  have hbody {name : String} {body : List Node} (h : names.procedures.find? name = some body) :
      body = [.mk 7 (.assign "y" (.atom (.literal (.bool true))))] := by
    by_cases hname : name = "g"
    · rw [hname] at h
      exact (Option.some.inj h).symm
    · exact absurd ((Table.find?_set_of_ne _ _ hname).symm.trans h) nofun
  -- nothing is nested in the statements of the script and of the body
  have hoccurs {s : Statement} (h : StatementOccurs script names s) :
      s = .assign "x" (.atom (.literal .nil)) ∨ s = .call ⟨"g", []⟩ ∨
        s = .call ⟨"fail", [⟨none, .word "now"⟩]⟩ ∨
        s = .assign "y" (.atom (.literal (.bool true))) := by
    rcases h with ⟨node, hnode, rfl⟩ | ⟨name, body, hfind, node, hnode, rfl⟩
    · have hnode : node ∈ script := hnode
      simp only [script, List.mem_cons, List.not_mem_nil, or_false] at hnode
      rcases hnode with rfl | rfl | rfl
      · exact .inl rfl
      · exact .inr (.inl rfl)
      · exact .inr (.inr (.inl rfl))
    · rw [hbody hfind] at hnode
      obtain rfl : node = _ := List.mem_singleton.1 hnode
      exact .inr (.inr (.inr rfl))
  have hz : ¬ ∃ right, StatementOccurs script names (.assign "z" right) := by
    rintro ⟨right, h⟩
    simpa using hoccurs h
  have hg : ¬ ∃ body, StatementOccurs script names (.define "g" body) := by
    rintro ⟨body, h⟩
    simpa using hoccurs h
  refine ⟨rfl, hvalues "z" rfl, (hkept "z" hz).trans rfl, ?_, hnew "y" rfl (by decide)⟩
  rw [hsame "g" hg]
  rfl

end RobotBench
