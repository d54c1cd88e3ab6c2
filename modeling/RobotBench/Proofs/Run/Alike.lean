import RobotBench.Bench
import RobotBench.Proofs.Run.Exec
import RobotBench.Proofs.Script.Alike

/-!
# Runs that are alike

What executions do on machines that are the same but for the bodies of procedures, and for the
lines on the path to a fault. `RunsAlike` relates two executions that then end alike, in
machines that are again the same but for that. All parts of the meaning of nodes respect it.
If bodies that are related run alike whenever procedures are entered alike (`BodiesRunAlike`),
then so do scripts and calls of procedures; it is enough that the host does not look into the
bodies of the procedures it sees entered. Nodes that are alike as trees are bodies of this
kind, and `script_alike` says what follows for scripts.
-/

namespace RobotBench

/-! ## Names that are alike -/

/-- The tables bind the same names, to related values. -/
def Table.Alike {α β : Type} (Rel : α → β → Prop) (t : Table α) (t' : Table β) : Prop :=
  List.Forall₂ (fun entry entry' => entry.1 = entry'.1 ∧ Rel entry.2 entry'.2)
    t.entries t'.entries

namespace Table

variable {α β : Type} {Rel : α → β → Prop} {t : Table α} {t' : Table β}

/-- Empty tables are alike. -/
theorem alike_empty : (empty : Table α).Alike Rel (empty : Table β) := .nil

/-- A table is like itself when every value is. -/
theorem alike_refl (t : Table α) {Same : α → α → Prop} (h : ∀ a, Same a a) : t.Alike Same t :=
  List.forall₂_same.2 fun entry _ => ⟨rfl, h entry.2⟩

/-- Under every name tables that are alike have values that are related, or none. -/
theorem Alike.find? (h : t.Alike Rel t') (name : String) :
    Option.Rel Rel (t.find? name) (t'.find? name) := by
  rw [Table.find?, Table.find?]
  rw [Table.Alike] at h
  generalize t.entries = entries at h
  generalize t'.entries = entries' at h
  induction h with
  | nil => exact .none
  | @cons entry entry' more more' hentry _ ih =>
      obtain ⟨other, value⟩ := entry
      obtain ⟨other', value'⟩ := entry'
      obtain ⟨hname, hvalue⟩ := hentry
      cases hname
      rw [lookup, lookup]
      split
      · exact .some hvalue
      · exact ih

/-- Tables stay alike when related values are set under one name. -/
theorem Alike.set (h : t.Alike Rel t') (name : String) {a : α} {b : β} (hab : Rel a b) :
    (t.set name a).Alike Rel (t'.set name b) := by
  rw [Table.Alike] at h ⊢
  rw [Table.set, Table.set]
  simp only
  generalize t.entries = entries at h
  generalize t'.entries = entries' at h
  induction h with
  | nil => exact .cons ⟨rfl, hab⟩ .nil
  | @cons entry entry' more more' hentry hmore ih =>
      obtain ⟨other, value⟩ := entry
      obtain ⟨other', value'⟩ := entry'
      obtain ⟨hname, hvalue⟩ := hentry
      cases hname
      rw [place, place]
      split
      · exact .cons ⟨rfl, hab⟩ (.cons ⟨rfl, hvalue⟩ hmore)
      · split
        · exact .cons ⟨rfl, hab⟩ hmore
        · exact .cons ⟨rfl, hvalue⟩ ih

end Table

section

variable (Lines : Nat → Nat → Prop) (Bodies : List Node → List Node → Prop)

/-- The names have the same variables with the same values, and the same procedures with
related bodies. -/
structure Namespace.Alike (names names' : Namespace) : Prop where
  values : names.values = names'.values
  procedures : names.procedures.Alike Bodies names'.procedures

/-- Nothing is bound on either side. -/
theorem Namespace.alike_empty : Namespace.empty.Alike Bodies .empty := ⟨rfl, Table.alike_empty⟩

/-- The machines are the same but for the bodies of procedures, which are related. -/
structure Machine.Alike {ω : Type} (m m' : Machine ω) : Prop where
  world : m.world = m'.world
  names : m.names.Alike Bodies m'.names
  steps : m.steps = m'.steps

/-! ## Faults that are alike -/

/-- The steps are the same but for a line, which is related. -/
inductive Frame.Alike : Frame → Frame → Prop
  | line {number number' : Nat} (h : Lines number number') :
      Frame.Alike (.line number) (.line number')
  | procedure (name : String) : Frame.Alike (.procedure name) (.procedure name)

/-- The faults are the same but for the lines on their paths, which are related. -/
structure Fault.Alike (f f' : Fault) : Prop where
  path : List.Forall₂ (Frame.Alike Lines) f.path f'.path
  cause : f.cause = f'.cause

/-- The executions stopped early for the same cause, on paths that are alike. -/
inductive Halt.Alike : Halt → Halt → Prop
  | fault {f f' : Fault} (h : f.Alike Lines f') : Halt.Alike (.fault f) (.fault f')
  | endless : Halt.Alike .endless .endless

/-- On machines that are alike the executions have the same result or stop early alike, and
the machines afterwards are alike. -/
def RunsAlike {ω α : Type} (x x' : Exec ω α) : Prop :=
  ∀ m m', m.Alike Bodies m' →
    EndAlike (Halt.Alike Lines) Eq (x m).1 (x' m').1 ∧ (x m).2.Alike Bodies (x' m').2

/-- Procedures with related bodies are entered alike. -/
def EntriesAlike {ω : Type} (entry entry' : Entry ω) : Prop :=
  ∀ name body body', Bodies body body' →
    RunsAlike Lines Bodies (entry name body) (entry' name body')

/-- Related bodies run alike whenever procedures are entered alike. -/
def BodiesRunAlike {ω : Type} (setting : Setting ω) : Prop :=
  ∀ entry entry', EntriesAlike Lines Bodies entry entry' → ∀ body body', Bodies body body' →
    RunsAlike Lines Bodies (runNodes setting entry body) (runNodes setting entry' body')

end

namespace RunsAlike

variable {ω α β : Type} {Lines : Nat → Nat → Prop} {Bodies : List Node → List Node → Prop}

/-! ## Parts -/

/-- The same value from the start. -/
theorem pure (a : α) : RunsAlike Lines Bodies (pure a : Exec ω α) (pure a) :=
  fun _ _ hm => ⟨.ok rfl, hm⟩

/-- The same fault of its own. -/
theorem fail (cause : Cause) :
    RunsAlike Lines Bodies (Exec.fail cause : Exec ω α) (Exec.fail cause) :=
  fun _ _ hm => ⟨.error (.fault ⟨.nil, rfl⟩), hm⟩

/-- The same result, whichever it is. -/
theorem of_except (result : Except Cause α) :
    RunsAlike Lines Bodies (Exec.ofExcept result : Exec ω α) (Exec.ofExcept result) := by
  cases result with
  | ok a => exact pure a
  | error cause => exact fail cause

/-- Executions in a row run alike when each of them does, for all values between. -/
theorem bind {x x' : Exec ω α} {f f' : α → Exec ω β} (hx : RunsAlike Lines Bodies x x')
    (hf : ∀ a, RunsAlike Lines Bodies (f a) (f' a)) :
    RunsAlike Lines Bodies (x >>= f) (x' >>= f') := by
  intro m m' hm
  have hfirst := hx m m' hm
  rw [Exec.bind_apply, Exec.bind_apply]
  generalize x m = p at hfirst ⊢
  generalize x' m' = p' at hfirst ⊢
  obtain ⟨result, m₁⟩ := p
  obtain ⟨result', m₁'⟩ := p'
  obtain ⟨hresult, hm₁⟩ := hfirst
  cases hresult with
  | ok h =>
      cases h
      exact hf _ m₁ m₁' hm₁
  | error hhalt => exact ⟨.error hhalt, hm₁⟩

/-- Frames that are alike are put on the path of either failure. -/
theorem under {frame frame' : Frame} (hframe : frame.Alike Lines frame') {x x' : Exec ω α}
    (hx : RunsAlike Lines Bodies x x') :
    RunsAlike Lines Bodies (x.under frame) (x'.under frame') := by
  intro m m' hm
  have hfirst := hx m m' hm
  rw [Exec.under_apply, Exec.under_apply]
  generalize x m = p at hfirst ⊢
  generalize x' m' = p' at hfirst ⊢
  obtain ⟨result, m₁⟩ := p
  obtain ⟨result', m₁'⟩ := p'
  obtain ⟨hresult, hm₁⟩ := hfirst
  refine ⟨?_, hm₁⟩
  cases hresult with
  | ok h => exact .ok h
  | error hhalt =>
      cases hhalt with
      | fault hf => exact .error (.fault ⟨.cons hframe hf.path, hf.cause⟩)
      | endless => exact .error .endless

/-- Machines that are alike may be read. -/
theorem read {f f' : Machine ω → Exec ω α}
    (h : ∀ m m', m.Alike Bodies m' → RunsAlike Lines Bodies (f m) (f' m')) :
    RunsAlike Lines Bodies (get >>= f) (get >>= f') :=
  fun m m' hm => h m m' hm m m' hm

/-- The same value is set under the same name. -/
theorem assign (name : String) (value : Value) :
    RunsAlike Lines Bodies
      (modify fun m => { m with names := m.names.assign name value } : Exec ω Unit)
      (modify fun m => { m with names := m.names.assign name value }) :=
  fun _ _ hm => ⟨.ok rfl, hm.world,
    ⟨congrArg (·.set name value) hm.names.values, hm.names.procedures⟩, hm.steps⟩

/-- Related bodies are set under the same name. -/
theorem define (name : String) {body body' : List Node} (h : Bodies body body') :
    RunsAlike Lines Bodies
      (modify fun m => { m with names := m.names.define name body } : Exec ω Unit)
      (modify fun m => { m with names := m.names.define name body' }) :=
  fun _ _ hm => ⟨.ok rfl, hm.world,
    ⟨hm.names.values, hm.names.procedures.set name h⟩, hm.steps⟩

/-- Executions run alike between events in which the watch sees no difference. -/
theorem between {host : Host ω} {first first' last last' : Event}
    (hfirst : ∀ world, host.watch first world = host.watch first' world)
    (hlast : ∀ world, host.watch last world = host.watch last' world) {x x' : Exec ω α}
    (hx : RunsAlike Lines Bodies x x') :
    RunsAlike Lines Bodies (Exec.between host first last x)
      (Exec.between host first' last' x') := by
  intro m m' hm
  have hwatched : (m.watched host first).Alike Bodies (m'.watched host first') :=
    ⟨by rw [Machine.watched, Machine.watched, hm.world, hfirst], hm.names, hm.steps⟩
  obtain ⟨hresult, hafter⟩ := hx _ _ hwatched
  have hworld : host.watch last (x (m.watched host first)).2.world =
      host.watch last' (x' (m'.watched host first')).2.world := by
    rw [hafter.world, hlast]
  exact ⟨hresult, hworld, hafter.names, hafter.steps⟩

/-- Blocks run alike as what is in them does. -/
theorem in_block (setting : Setting ω) {x x' : Exec ω Flow} (hx : RunsAlike Lines Bodies x x') :
    RunsAlike Lines Bodies (inBlock setting x) (inBlock setting x') :=
  between (fun _ => rfl) (fun _ => rfl) hx

/-- A step is counted alike, and passes the limit in both runs or in none. -/
theorem step (setting : Setting ω) :
    RunsAlike Lines Bodies (countStep setting) (countStep setting) := by
  intro m m' hm
  obtain ⟨hworld, hnames, hsteps⟩ := hm
  rcases count_step_cases setting m with ⟨hroom, hcount⟩ | ⟨limit, hlimit, hover, hcount⟩
  · rw [hcount, count_step_ok (hsteps ▸ hroom), hworld, hsteps]
    exact ⟨.ok rfl, rfl, hnames, rfl⟩
  · rw [hcount, count_step_over hlimit (hsteps ▸ hover), hworld, hsteps]
    exact ⟨.error (.fault ⟨.nil, rfl⟩), rfl, hnames, rfl⟩

/-- Operations see the same world and the same arguments. -/
theorem operation (setting : Setting ω) (name : String)
    (act : Arguments → ω → Except Cause Value × ω) (arguments : Arguments) :
    RunsAlike Lines Bodies (runOperation setting name act arguments)
      (runOperation setting name act arguments) := by
  intro m m' hm
  obtain ⟨hworld, hnames, hsteps⟩ := hm
  rw [run_operation_apply, run_operation_apply, hworld]
  refine ⟨?_, rfl, hnames, hsteps⟩
  cases (act arguments (setting.host.watch (.operation name) m'.world)).1 with
  | ok value => exact .ok rfl
  | error cause => exact .error (.fault ⟨.nil, rfl⟩)

/-- Repetitions of bodies that run alike run alike. -/
theorem times {body body' : Exec ω Flow} (h : RunsAlike Lines Bodies body body') (count : Nat) :
    RunsAlike Lines Bodies (Exec.times body count) (Exec.times body' count) := by
  induction count with
  | zero => exact pure _
  | succ count ih =>
      rw [Exec.times_succ, Exec.times_succ]
      refine bind h fun flow => ?_
      cases flow with
      | next => exact ih
      | leave => exact pure _
      | answer value => exact pure _

/-- Loops run alike whose tests and bodies do. -/
theorem whilst {test test' : Exec ω Bool} {body body' : Exec ω Flow}
    (htest : RunsAlike Lines Bodies test test') (hbody : RunsAlike Lines Bodies body body')
    (setting : Setting ω) (rounds : Nat) :
    RunsAlike Lines Bodies (Exec.whilst test body (countStep setting) rounds)
      (Exec.whilst test' body' (countStep setting) rounds) := by
  induction rounds with
  | zero => exact fun _ _ hm => ⟨.error .endless, hm⟩
  | succ rounds ih =>
      rw [Exec.whilst_succ, Exec.whilst_succ]
      refine bind htest fun holds => ?_
      cases holds with
      | false => exact pure _
      | true =>
          refine bind hbody fun flow => ?_
          cases flow with
          | next => exact bind (step setting) fun _ => ih
          | leave => exact pure _
          | answer value => exact pure _

/-! ## Operands and calls -/

/-- What an operand is depends on the variables only. -/
theorem plain_value_eq {names names' : Namespace} (h : names.values = names'.values)
    (operand : Atom) : plainValue names operand = plainValue names' operand := by
  cases operand with
  | literal value => rfl
  | word text => rfl
  | «variable» name => rw [plainValue, plainValue, h]

/-- The arguments that are gathered depend on the values alone, not on the procedures. -/
theorem gather_eq {names names' : Namespace} (h : names.values = names'.values)
    (arguments : List Argument) (done : Arguments) :
    gather names arguments done = gather names' arguments done := by
  induction arguments generalizing done with
  | nil => rfl
  | cons argument more ih =>
      rw [gather, gather, plain_value_eq h]
      cases plainValue names' argument.value with
      | ok value => exact ih _
      | error cause => rfl

/-- Operands are read alike. -/
theorem read_operand (operand : Atom) :
    RunsAlike Lines Bodies (readOperand operand : Exec ω Value) (readOperand operand) := by
  refine read fun m m' hm => ?_
  rw [plain_value_eq hm.names.values]
  exact of_except _

section

variable {setting : Setting ω} {entry entry' : Entry ω}
  (hentry : EntriesAlike Lines Bodies entry entry')
include hentry

/-- Calls run alike when procedures are entered alike. -/
theorem call_named (name : String) (arguments : Arguments) :
    RunsAlike Lines Bodies (callNamed setting entry name arguments)
      (callNamed setting entry' name arguments) := by
  refine read fun m m' hm => ?_
  have hfind := hm.names.procedures.find? name
  generalize m.names.procedures.find? name = found at hfind
  generalize m'.names.procedures.find? name = found' at hfind
  cases hfind with
  | some hbody =>
      show RunsAlike _ _ (if _ then _ else _) (if _ then _ else _)
      split
      · exact hentry name _ _ hbody
      · exact fail _
  | none =>
      cases hact : setting.host.operation? name with
      | some act => exact operation setting name act arguments
      | none => exact fail _

/-- A value may be the name of a procedure, which is entered alike. -/
theorem evaluate (operand : Atom) :
    RunsAlike Lines Bodies (RobotBench.evaluate setting entry operand)
      (RobotBench.evaluate setting entry' operand) := by
  cases operand with
  | literal value => exact read_operand _
  | «variable» name => exact read_operand _
  | word text =>
      refine read fun m m' hm => ?_
      have hcallable : isCallable m.names text = isCallable m'.names text := by
        have hfind := hm.names.procedures.find? text
        rw [isCallable, isCallable, Table.contains, Table.contains]
        generalize m.names.procedures.find? text = found at hfind
        generalize m'.names.procedures.find? text = found' at hfind
        cases hfind <;> rfl
      rw [hcallable]
      show RunsAlike _ _ (if _ then _ else _) (if _ then _ else _)
      split
      · exact call_named hentry text .none
      · exact pure _

/-- Calls of the same words run alike. -/
theorem call (c : Call) :
    RunsAlike Lines Bodies (c.run setting entry) (c.run setting entry') := by
  refine read fun m m' hm => ?_
  rw [gather_eq hm.names.values]
  exact bind (of_except _) fun arguments => call_named hentry c.name arguments

/-- Expressions of the same words run alike. -/
theorem expression (e : Expression) :
    RunsAlike Lines Bodies (e.run setting entry) (e.run setting entry') := by
  cases e with
  | atom operand => exact evaluate hentry operand
  | call c => exact call hentry c

/-- Conditions of the same words are tested alike. -/
theorem test (c : Condition) :
    RunsAlike Lines Bodies (c.test setting entry) (c.test setting entry') := by
  cases c with
  | truthy operand => exact bind (evaluate hentry operand) fun _ => pure _
  | falsy operand => exact bind (evaluate hentry operand) fun _ => pure _
  | compare left comparison right =>
      exact bind (read_operand left) fun _ => bind (read_operand right) fun _ => of_except _

/-- Counts of the same words are read alike. -/
theorem read_count (operand : Atom) :
    RunsAlike Lines Bodies (readCount setting entry operand)
      (readCount setting entry' operand) :=
  bind (evaluate hentry operand) fun _ => of_except _

end

end RunsAlike

/-! ## Statements -/

namespace Statement

variable {ω : Type} {Lines : Nat → Nat → Prop} {Bodies : List Node → List Node → Prop}
  {setting : Setting ω} {entry entry' : Entry ω}

section

variable (hentry : EntriesAlike Lines Bodies entry entry')
include hentry

/-- A statement without blocks runs alike whenever procedures are entered alike. -/
theorem plain_runs_alike {s : Statement} (hs : s.IsPlain) :
    RunsAlike Lines Bodies (s.run setting entry) (s.run setting entry') := by
  cases s with
  | assign name value =>
      refine .bind (.expression hentry value) fun value => ?_
      exact .bind (.assign name value) fun _ => .pure _
  | call c => exact .bind (.call hentry c) fun _ => .pure _
  | leave => exact .pure _
  | answer value =>
      cases value with
      | none => exact .pure _
      | some operand => exact .bind (.evaluate hentry operand) fun _ => .pure _
  | _ => exact False.elim hs

end

/-- Definitions of related bodies run alike. -/
theorem define_runs_alike (name : String) {body body' : List Node} (h : Bodies body body') :
    RunsAlike Lines Bodies ((define name body).run setting entry)
      ((define name body').run setting entry') :=
  .bind (.define name h) fun _ => .pure _

section

variable {body body' : List Node}
  (hbody : RunsAlike Lines Bodies (runNodes setting entry body) (runNodes setting entry' body'))
include hbody

/-- Loops without a condition run alike as their bodies do. -/
theorem loop_runs_alike :
    RunsAlike Lines Bodies ((loop body).run setting entry) ((loop body').run setting entry') := by
  show RunsAlike _ _ (Exec.forever _ _ _) (Exec.forever _ _ _)
  rw [Exec.forever_eq_whilst, Exec.forever_eq_whilst]
  exact .whilst (.pure true) (.in_block setting hbody) setting setting.rounds

variable (hentry : EntriesAlike Lines Bodies entry entry')
include hentry

/-- Repetitions run alike as their bodies do. -/
theorem repeated_runs_alike (count : Atom) :
    RunsAlike Lines Bodies ((repeated count body).run setting entry)
      ((repeated count body').run setting entry') :=
  .bind (.read_count hentry count) fun count => .times (.in_block setting hbody) count

/-- Loops with a condition run alike as their bodies do. -/
theorem whilst_runs_alike (condition : Condition) :
    RunsAlike Lines Bodies ((whilst condition body).run setting entry)
      ((whilst condition body').run setting entry') :=
  .whilst (.test hentry condition) (.in_block setting hbody) setting setting.rounds

/-- Branches run alike as both of their bodies do. -/
theorem branch_runs_alike (condition : Condition) {no no' : List Node}
    (hno : RunsAlike Lines Bodies (runNodes setting entry no) (runNodes setting entry' no')) :
    RunsAlike Lines Bodies ((branch condition body no).run setting entry)
      ((branch condition body' no').run setting entry') := by
  refine .bind (.test hentry condition) fun holds => ?_
  cases holds with
  | true => exact .in_block setting hbody
  | false => exact .in_block setting hno

end

end Statement

/-- A node runs as its statement does, and the nodes after it as they do. -/
theorem RunsAlike.nodes_cons {ω : Type} {Lines : Nat → Nat → Prop}
    {Bodies : List Node → List Node → Prop} {setting : Setting ω} {entry entry' : Entry ω}
    {line line' : Nat} {s s' : Statement} {more more' : List Node} (hline : Lines line line')
    (hs : RunsAlike Lines Bodies (s.run setting entry) (s'.run setting entry'))
    (hmore : RunsAlike Lines Bodies (runNodes setting entry more) (runNodes setting entry' more')) :
    RunsAlike Lines Bodies (runNodes setting entry (.mk line s :: more))
      (runNodes setting entry' (.mk line' s' :: more')) := by
  refine .bind (.under (.line hline) (.bind (.step setting) fun _ => hs)) fun flow => ?_
  cases flow with
  | next => exact hmore
  | leave => exact .pure _
  | answer value => exact .pure _

/-! ## Scripts -/

/-- The host watches the same whichever of two related bodies a procedure is entered with. -/
def Host.Heedless {ω : Type} (host : Host ω) (Bodies : List Node → List Node → Prop) : Prop :=
  ∀ name body body' world, Bodies body body' →
    host.watch (.enter name body) world = host.watch (.enter name body') world

/-- The host of a bench watches nothing. -/
theorem Bench.heedless {σ : Type} (robot : Robot σ) (Bodies : List Node → List Node → Prop) :
    (Bench.host robot).Heedless Bodies :=
  fun _ _ _ _ _ => rfl

namespace BodiesRunAlike

variable {ω : Type} {Lines : Nat → Nat → Prop} {Bodies : List Node → List Node → Prop}
  {setting : Setting ω} (hbodies : BodiesRunAlike Lines Bodies setting)
include hbodies

/-- Related bodies run alike as blocks of their own. -/
theorem body {entry entry' : Entry ω} (hentry : EntriesAlike Lines Bodies entry entry')
    {nodes nodes' : List Node} (h : Bodies nodes nodes') :
    RunsAlike Lines Bodies (runBody setting entry nodes) (runBody setting entry' nodes') :=
  .in_block setting (hbodies entry entry' hentry nodes nodes' h)

variable (hhost : setting.host.Heedless Bodies)
include hhost

/-- Procedures with related bodies are entered alike, by induction on how many procedures may
still become active. -/
theorem enter (depth : Nat) :
    EntriesAlike Lines Bodies (enter setting depth) (enter setting depth) := by
  induction depth with
  | zero => exact fun _ _ _ _ => .fail _
  | succ depth ih =>
      intro name body body' h
      refine .bind (.under (.procedure name) (.between (fun world => ?_) (fun _ => rfl) ?_))
        fun flow => .pure _
      · exact hhost name body body' world h
      · exact hbodies.body ih h

/-- Related scripts run alike. -/
theorem script {script script' : Script} (h : Bodies script script') :
    RunsAlike Lines Bodies (script.run setting) (script'.run setting) := by
  refine .bind (hbodies.body (hbodies.enter hhost maxCallDepth) h) fun flow => ?_
  cases flow with
  | next => exact .pure _
  | leave => exact .fail _
  | answer value => exact .fail _

/-- Calls of procedures with related bodies run alike. -/
theorem call_procedure (name : String) :
    RunsAlike Lines Bodies (callProcedure setting name) (callProcedure setting name) := by
  refine .read fun m m' hm => ?_
  have hfind := hm.names.procedures.find? name
  generalize m.names.procedures.find? name = found at hfind
  generalize m'.names.procedures.find? name = found' at hfind
  cases hfind with
  | some hbody => exact hbodies.enter hhost maxCallDepth name _ _ hbody
  | none => exact .fail _

end BodiesRunAlike

/-! ## Trees -/

section

variable {ω : Type} {Lines : Nat → Nat → Prop} {setting : Setting ω}

mutual

/-- Statements that are alike run alike. -/
theorem Statement.runs_alike {entry entry' : Entry ω}
    (hentry : EntriesAlike Lines (NodesAlike Lines) entry entry') (s : Statement)
    {s' : Statement} (h : s.Alike Lines s') :
    RunsAlike Lines (NodesAlike Lines) (s.run setting entry) (s'.run setting entry') := by
  cases s with
  | define name body =>
      cases h with
      | define _ hbody => exact Statement.define_runs_alike name hbody
  | repeated count body =>
      cases h with
      | repeated _ hbody =>
          exact Statement.repeated_runs_alike (nodes_run_alike hentry body hbody) hentry count
  | loop body =>
      cases h with
      | loop hbody => exact Statement.loop_runs_alike (nodes_run_alike hentry body hbody)
  | whilst condition body =>
      cases h with
      | whilst _ hbody =>
          exact Statement.whilst_runs_alike (nodes_run_alike hentry body hbody) hentry condition
  | branch condition yes no =>
      cases h with
      | branch _ hyes hno =>
          exact Statement.branch_runs_alike (nodes_run_alike hentry yes hyes) hentry condition
            (nodes_run_alike hentry no hno)
  | _ =>
      cases h
      exact Statement.plain_runs_alike hentry trivial
  termination_by structural s

/-- Nodes that are alike run alike. -/
theorem nodes_run_alike {entry entry' : Entry ω}
    (hentry : EntriesAlike Lines (NodesAlike Lines) entry entry') (nodes : List Node)
    {nodes' : List Node} (h : NodesAlike Lines nodes nodes') :
    RunsAlike Lines (NodesAlike Lines) (runNodes setting entry nodes)
      (runNodes setting entry' nodes') := by
  cases nodes with
  | nil =>
      cases h
      exact .pure _
  | cons node more =>
      obtain ⟨line, s⟩ := node
      cases h with
      | cons hnode hmore =>
          cases hnode with
          | mk hline hs =>
              exact .nodes_cons hline (s.runs_alike hentry hs) (nodes_run_alike hentry more hmore)
  termination_by structural nodes

end

/-- Bodies that differ in their lines alone run alike. -/
theorem bodies_run_alike : BodiesRunAlike Lines (NodesAlike Lines) setting :=
  fun _ _ hentry body _ h => nodes_run_alike hentry body h

variable (hhost : setting.host.Heedless (NodesAlike Lines))
include hhost

/-- Scripts that are alike run alike. -/
theorem script_alike {script script' : Script} (h : NodesAlike Lines script script') :
    RunsAlike Lines (NodesAlike Lines) (script.run setting) (script'.run setting) :=
  bodies_run_alike.script hhost h

/-- Calls of procedures whose bodies are alike run alike. -/
theorem call_procedure_alike (name : String) :
    RunsAlike Lines (NodesAlike Lines) (callProcedure setting name)
      (callProcedure setting name) :=
  bodies_run_alike.call_procedure hhost name

end

end RobotBench
