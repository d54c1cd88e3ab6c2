import RobotBench.Proofs.Run.Causes
import RobotBench.Proofs.Run.Exec
import RobotBench.Proofs.Script.Scope

/-!
# Relations between runs

What is to be known of two runs of the same script is stated as a relation between executions in
two settings, and proved by looking at the parts only that the meaning of nodes is made of. A
`PartSimulation` is respected by the parts that bind no names, and so by calls, conditions and
counts. A `WriteSimulation` is respected by binding names too, where the statement that binds one
is allowed; `WriteSimulation.nodes` says that the runs of the same nodes are then related, by
induction on the nodes, whatever the entries to procedures are, if these are related. In a
`BodySimulation` every assignment is allowed and a definition as far as its body is as it must be.
A `Simulation` is respected by the entry to a procedure too, so that it relates the runs of
scripts.
-/

namespace RobotBench

/-- The body of every procedure satisfies a predicate. -/
def Namespace.AllBodies (Body : List Node → Prop) (names : Namespace) : Prop :=
  ∀ name body, names.procedures.find? name = some body → Body body

/-- Defining a procedure with a body that satisfies the predicate keeps that all do. -/
theorem Namespace.AllBodies.define {Body : List Node → Prop} {names : Namespace}
    (h : names.AllBodies Body) (name : String) {body : List Node} (hbody : Body body) :
    (names.define name body).AllBodies Body := by
  intro other found hfind
  by_cases hname : other = name
  · subst hname
    have hself := names.procedures.find?_set_self other body
    cases hself.symm.trans hfind
    exact hbody
  · exact h other found ((names.procedures.find?_set_of_ne body hname).symm.trans hfind)

/-- If the statement defines a procedure, its body satisfies a predicate. -/
def Statement.Defines (Body : List Node → Prop) (s : Statement) : Prop :=
  ∀ name body, s = .define name body → Body body

/-- The body of every procedure that nodes define, however deep, satisfies a predicate. -/
def DefinesOnly (Body : List Node → Prop) (nodes : List Node) : Prop :=
  ∀ node ∈ preorder nodes, node.statement.Defines Body

/-- Every statement of the nodes, however deep, satisfies a predicate. -/
def EveryStatement (Allowed : Statement → Prop) (nodes : List Node) : Prop :=
  ∀ node ∈ preorder nodes, Allowed node.statement

/-- Nodes have every statement that the first of them has, on top or nested, and those of the
others. -/
theorem every_statement_cons {Allowed : Statement → Prop} {line : Nat} {s : Statement}
    {more : List Node} :
    EveryStatement Allowed (.mk line s :: more) ↔
      Allowed s ∧ (∀ node ∈ s.nested, Allowed node.statement) ∧ EveryStatement Allowed more := by
  simp only [EveryStatement, preorder_cons, List.forall_mem_cons, List.forall_mem_append,
    Node.statement]

/-- A relation between executions in two settings that respects the parts of the meaning of
nodes which bind no names, as long as the bodies of procedures satisfy a predicate. -/
structure PartSimulation {ω ω' : Type} (setting : Setting ω) (setting' : Setting ω')
    (Body : List Node → Prop) (Rel : {α : Type} → Exec ω α → Exec ω' α → Prop) : Prop where
  pure {α : Type} (a : α) : Rel (pure a : Exec ω α) (pure a)
  bind {α β : Type} {x : Exec ω α} {x' : Exec ω' α} {f : α → Exec ω β} {f' : α → Exec ω' β} :
    Rel x x' → (∀ a, Rel (f a) (f' a)) → Rel (x >>= f) (x' >>= f')
  fail {α : Type} {cause : Cause} :
    ¬ cause.IsStepLimit → Rel (Exec.fail cause : Exec ω α) (Exec.fail cause)
  under {α : Type} (frame : Frame) {x : Exec ω α} {x' : Exec ω' α} :
    Rel x x' → Rel (x.under frame) (x'.under frame)
  block {α : Type} {x : Exec ω α} {x' : Exec ω' α} : Rel x x' →
    Rel (Exec.between setting.host .openBlock .closeBlock x)
      (Exec.between setting'.host .openBlock .closeBlock x')
  /-- Both runs see the same names, and all bodies in them satisfy the predicate. -/
  names {α : Type} {f : Machine ω → Exec ω α} {f' : Machine ω' → Exec ω' α} :
    (∀ m m', m.names = m'.names → m.names.AllBodies Body → Rel (f m) (f' m')) →
      Rel (get >>= f) (get >>= f')
  step : Rel (countStep setting) (countStep setting')
  /-- The same operations exist. -/
  operation? (name : String) :
    (setting.host.operation? name).isSome = (setting'.host.operation? name).isSome
  operation {name : String} {act : Arguments → ω → Except Cause Value × ω}
    {act' : Arguments → ω' → Except Cause Value × ω'} (arguments : Arguments) :
    setting.host.operation? name = some act → setting'.host.operation? name = some act' →
      Rel (runOperation setting name act arguments) (runOperation setting' name act' arguments)
  whilst {test : Exec ω Bool} {test' : Exec ω' Bool} {body : Exec ω Flow}
    {body' : Exec ω' Flow} : Rel test test' → Rel body body' →
      Rel (Exec.whilst test body (countStep setting) setting.rounds)
        (Exec.whilst test' body' (countStep setting') setting'.rounds)

/-- A relation that respects binding names as well, by statements that are allowed. -/
structure WriteSimulation {ω ω' : Type} (setting : Setting ω) (setting' : Setting ω')
    (Allowed : Statement → Prop) (Body : List Node → Prop)
    (Rel : {α : Type} → Exec ω α → Exec ω' α → Prop) : Prop
    extends PartSimulation setting setting' Body Rel where
  assign {name : String} {right : Expression} (value : Value) : Allowed (.assign name right) →
    Rel (modify fun m => { m with names := m.names.assign name value } : Exec ω Unit)
      (modify fun m => { m with names := m.names.assign name value })
  define {name : String} {body : List Node} : Allowed (.define name body) →
    Rel (modify fun m => { m with names := m.names.define name body } : Exec ω Unit)
      (modify fun m => { m with names := m.names.define name body })
  /-- The statements of a body are allowed when the body satisfies the predicate. -/
  nested {body : List Node} : Body body → EveryStatement Allowed body

/-- A relation that respects every assignment, and every definition of a body that satisfies the
predicate. -/
structure BodySimulation {ω ω' : Type} (setting : Setting ω) (setting' : Setting ω')
    (Body : List Node → Prop) (Rel : {α : Type} → Exec ω α → Exec ω' α → Prop) : Prop
    extends PartSimulation setting setting' Body Rel where
  assign (name : String) (value : Value) :
    Rel (modify fun m => { m with names := m.names.assign name value } : Exec ω Unit)
      (modify fun m => { m with names := m.names.assign name value })
  define (name : String) {body : List Node} : Body body →
    Rel (modify fun m => { m with names := m.names.define name body } : Exec ω Unit)
      (modify fun m => { m with names := m.names.define name body })
  /-- What a body defines satisfies the predicate when the body does. -/
  nested {body : List Node} : Body body → DefinesOnly Body body

/-- A relation that respects entering procedures as well. -/
structure Simulation {ω ω' : Type} (setting : Setting ω) (setting' : Setting ω')
    (Body : List Node → Prop) (Rel : {α : Type} → Exec ω α → Exec ω' α → Prop) : Prop
    extends BodySimulation setting setting' Body Rel where
  procedure {α : Type} (name : String) (body : List Node) {x : Exec ω α} {x' : Exec ω' α} :
    Rel x x' → Rel (Exec.between setting.host (.enter name body) (.exit name) x)
      (Exec.between setting'.host (.enter name body) (.exit name) x')

/-- A relation that sequences respect, and that loops given up are in, holds of loops
whose tests, bodies and pauses are related. -/
theorem Exec.whilst_related {ω ω' : Type} {Rel : {α : Type} → Exec ω α → Exec ω' α → Prop}
    (hpure : ∀ flow : Flow, Rel (Pure.pure flow) (Pure.pure flow))
    (hbind : ∀ {α : Type} {x : Exec ω α} {x' : Exec ω' α} {f : α → Exec ω Flow}
      {f' : α → Exec ω' Flow}, Rel x x' → (∀ a, Rel (f a) (f' a)) → Rel (x >>= f) (x' >>= f'))
    (hendless : Rel (throw .endless : Exec ω Flow) (throw .endless))
    {test : Exec ω Bool} {test' : Exec ω' Bool} {body : Exec ω Flow} {body' : Exec ω' Flow}
    {pause : Exec ω Unit} {pause' : Exec ω' Unit} (htest : Rel test test')
    (hbody : Rel body body') (hpause : Rel pause pause') (rounds : Nat) :
    Rel (Exec.whilst test body pause rounds) (Exec.whilst test' body' pause' rounds) := by
  induction rounds with
  | zero => exact hendless
  | succ rounds ih =>
      rw [whilst_succ, whilst_succ]
      refine hbind htest fun holds => ?_
      cases holds with
      | false => exact hpure _
      | true =>
          refine hbind hbody fun flow => ?_
          cases flow with
          | next => exact hbind hpause fun _ => ih
          | leave => exact hpure _
          | answer value => exact hpure _

namespace PartSimulation

variable {ω ω' : Type} {setting : Setting ω} {setting' : Setting ω'}
  {Body : List Node → Prop} {Rel : {α : Type} → Exec ω α → Exec ω' α → Prop}
  (sim : PartSimulation setting setting' Body Rel)
include sim

/-- The same result, if it is no failure or one for a value, is related to itself. -/
theorem of_except {α : Type} {result : Except Cause α} (h : ForValues result) :
    Rel (Exec.ofExcept result : Exec ω α) (Exec.ofExcept result) := by
  cases result with
  | ok a => exact sim.pure a
  | error cause => exact sim.fail (h.not_for_steps cause rfl)

/-- Reading an operand looks at the names alone. -/
theorem read_operand (operand : Atom) :
    Rel (readOperand operand : Exec ω Value) (readOperand operand) := by
  refine sim.names fun m m' hnames _ => ?_
  rw [hnames]
  exact sim.of_except (.plain_value m'.names operand)

/-- Blocks are related when what is in them is. -/
theorem in_block {x : Exec ω Flow} {x' : Exec ω' Flow} (h : Rel x x') :
    Rel (inBlock setting x) (inBlock setting' x') :=
  sim.block h

/-- Repetitions of related bodies are related. -/
theorem times {body : Exec ω Flow} {body' : Exec ω' Flow} (h : Rel body body') (count : Nat) :
    Rel (Exec.times body count) (Exec.times body' count) := by
  induction count with
  | zero => exact sim.pure _
  | succ count ih =>
      rw [Exec.times_succ, Exec.times_succ]
      refine sim.bind h fun flow => ?_
      cases flow with
      | next => exact ih
      | leave => exact sim.pure _
      | answer value => exact sim.pure _

/-- Loops without a condition are related when their bodies are. -/
theorem forever {body : Exec ω Flow} {body' : Exec ω' Flow} (h : Rel body body') :
    Rel (Exec.forever body (countStep setting) setting.rounds)
      (Exec.forever body' (countStep setting') setting'.rounds) := by
  rw [Exec.forever_eq_whilst, Exec.forever_eq_whilst]
  exact sim.whilst (sim.pure true) h

/-! ## Calls -/

section

variable {entry : Entry ω} {entry' : Entry ω'}
  (hentry : ∀ name body, Body body → Rel (entry name body) (entry' name body))
include hentry

/-- Calls are related when the entries to procedures are. -/
theorem call_named (name : String) (arguments : Arguments) :
    Rel (callNamed setting entry name arguments)
      (callNamed setting' entry' name arguments) := by
  refine sim.names fun m m' hnames hbodies => ?_
  rw [← hnames]
  cases hfind : m.names.procedures.find? name with
  | some body =>
      show Rel (if _ then _ else _) (if _ then _ else _)
      split
      · exact hentry name body (hbodies name body hfind)
      · exact sim.fail id
  | none =>
      -- no procedure has the name, so that both runs ask their hosts, and get the same
      -- kind of answer
      have hsome := sim.operation? name
      cases hact : setting.host.operation? name with
      | some act =>
          rw [hact] at hsome
          obtain ⟨act', hact'⟩ := Option.isSome_iff_exists.1 hsome.symm
          simp only [hact']
          exact sim.operation arguments hact hact'
      | none =>
          rw [hact] at hsome
          have hact' := Option.isSome_eq_false_iff.1 hsome.symm
          rw [Option.isNone_iff_eq_none] at hact'
          simp only [hact']
          exact sim.fail id

/-- A value may be the name of a procedure, the entry to which is related. -/
theorem evaluate (operand : Atom) :
    Rel (RobotBench.evaluate setting entry operand)
      (RobotBench.evaluate setting' entry' operand) := by
  cases operand with
  | literal value => exact sim.read_operand _
  | «variable» name => exact sim.read_operand _
  | word text =>
      refine sim.names fun m m' hnames _ => ?_
      rw [hnames]
      show Rel (if _ then _ else _) (if _ then _ else _)
      split
      · exact sim.call_named hentry text .none
      · exact sim.pure _

/-- Calls of the same words are related. -/
theorem call (c : Call) : Rel (c.run setting entry) (c.run setting' entry') := by
  refine sim.names fun m m' hnames _ => ?_
  rw [hnames]
  exact sim.bind (sim.of_except (.gather m'.names c.arguments .none)) fun arguments =>
    sim.call_named hentry c.name arguments

/-- Expressions of the same words are related. -/
theorem expression (e : Expression) :
    Rel (e.run setting entry) (e.run setting' entry') := by
  cases e with
  | atom operand => exact sim.evaluate hentry operand
  | call c => exact sim.call hentry c

/-- Tests of the same condition are related. -/
theorem test (c : Condition) : Rel (c.test setting entry) (c.test setting' entry') := by
  cases c with
  | truthy operand =>
      exact sim.bind (sim.evaluate hentry operand) fun value => sim.pure _
  | falsy operand =>
      exact sim.bind (sim.evaluate hentry operand) fun value => sim.pure _
  | compare left comparison right =>
      exact sim.bind (sim.read_operand left) fun x =>
        sim.bind (sim.read_operand right) fun y =>
          sim.of_except (.holds comparison x y)

/-- Counts of the same words are related. -/
theorem read_count (operand : Atom) :
    Rel (readCount setting entry operand) (readCount setting' entry' operand) :=
  sim.bind (sim.evaluate hentry operand) fun value => sim.of_except (.count value)

end

end PartSimulation

namespace WriteSimulation

variable {ω ω' : Type} {setting : Setting ω} {setting' : Setting ω'}
  {Allowed : Statement → Prop} {Body : List Node → Prop}
  {Rel : {α : Type} → Exec ω α → Exec ω' α → Prop}
  (sim : WriteSimulation setting setting' Allowed Body Rel)
include sim

/-! ## Statements -/

mutual

/-- The runs of a statement are related when it is allowed and all that is nested in it is. -/
theorem statement {entry : Entry ω} {entry' : Entry ω'}
    (hentry : ∀ name body, Body body → Rel (entry name body) (entry' name body))
    (s : Statement) (hs : Allowed s) (hnested : ∀ node ∈ s.nested, Allowed node.statement) :
    Rel (s.run setting entry) (s.run setting' entry') := by
  cases s with
  | assign name value =>
      exact sim.bind (sim.expression hentry value) fun value =>
        sim.bind (sim.assign value hs) fun _ => sim.pure _
  | call c => exact sim.bind (sim.call hentry c) fun _ => sim.pure _
  | define name body => exact sim.bind (sim.define hs) fun _ => sim.pure _
  | repeated count body =>
      exact sim.bind (sim.read_count hentry count) fun count =>
        sim.times (sim.in_block (nodes hentry body hnested)) count
  | loop body => exact sim.forever (sim.in_block (nodes hentry body hnested))
  | whilst condition body =>
      exact sim.whilst (sim.test hentry condition) (sim.in_block (nodes hentry body hnested))
  | branch condition yes no =>
      obtain ⟨hyes, hno⟩ := List.forall_mem_append.1 hnested
      refine sim.bind (sim.test hentry condition) fun holds => ?_
      cases holds with
      | true => exact sim.in_block (nodes hentry yes hyes)
      | false => exact sim.in_block (nodes hentry no hno)
  | leave => exact sim.pure _
  | answer value =>
      cases value with
      | none => exact sim.pure _
      | some operand => exact sim.bind (sim.evaluate hentry operand) fun value => sim.pure _
  termination_by structural s

/-- The runs of nodes are related when all their statements are allowed. -/
theorem nodes {entry : Entry ω} {entry' : Entry ω'}
    (hentry : ∀ name body, Body body → Rel (entry name body) (entry' name body))
    (list : List Node) (h : EveryStatement Allowed list) :
    Rel (runNodes setting entry list) (runNodes setting' entry' list) := by
  cases list with
  | nil => exact sim.pure _
  | cons node more =>
      obtain ⟨line, s⟩ := node
      obtain ⟨hs, hnested, hmore⟩ := every_statement_cons.1 h
      -- the step of the node and its statement, both below the line of the node
      have hfirst := sim.bind sim.step fun _ => statement hentry s hs hnested
      have hrest := nodes hentry more hmore
      refine sim.bind (sim.under (.line line) hfirst) fun flow => ?_
      cases flow with
      | next => exact hrest
      | leave => exact sim.pure _
      | answer value => exact sim.pure _
  termination_by structural list

end

/-- Bodies whose statements are allowed are related. -/
theorem body {entry : Entry ω} {entry' : Entry ω'}
    (hentry : ∀ name body, Body body → Rel (entry name body) (entry' name body))
    (list : List Node) (h : EveryStatement Allowed list) :
    Rel (runBody setting entry list) (runBody setting' entry' list) :=
  sim.in_block (sim.nodes hentry list h)

/-! ## Whole runs -/

section

variable (hprocedure : ∀ {α : Type} (name : String) (body : List Node) {x : Exec ω α}
  {x' : Exec ω' α}, Rel x x' →
    Rel (Exec.between setting.host (.enter name body) (.exit name) x)
      (Exec.between setting'.host (.enter name body) (.exit name) x'))
include hprocedure

/-- A procedure that is entered is related to itself, by induction on how many procedures
may still become active. -/
theorem enter (depth : Nat) (name : String) (list : List Node) (h : Body list) :
    Rel (RobotBench.enter setting depth name list)
      (RobotBench.enter setting' depth name list) := by
  induction depth generalizing name list with
  | zero => exact sim.fail id
  | succ depth ih =>
      exact sim.bind (sim.under (.procedure name) (hprocedure name list
        (sim.body ih list (sim.nested h)))) fun flow => sim.pure _

/-- The runs of a script are related. -/
theorem script (script : Script) (h : EveryStatement Allowed script) :
    Rel (script.run setting) (script.run setting') := by
  refine sim.bind (sim.body (sim.enter hprocedure maxCallDepth) script h) fun flow => ?_
  cases flow with
  | next => exact sim.pure _
  | leave => exact sim.fail id
  | answer value => exact sim.fail id

/-- The calls of a procedure are related. -/
theorem call_procedure (name : String) :
    Rel (callProcedure setting name) (callProcedure setting' name) := by
  refine sim.names fun m m' hnames hbodies => ?_
  rw [← hnames]
  cases hfind : m.names.procedures.find? name with
  | some list => exact sim.enter hprocedure maxCallDepth name list (hbodies name list hfind)
  | none => exact sim.fail id

end

end WriteSimulation

/-! ## Runs that may bind any name -/

section

variable {ω ω' : Type} {setting : Setting ω} {setting' : Setting ω'}
  {Body : List Node → Prop} {Rel : {α : Type} → Exec ω α → Exec ω' α → Prop}

namespace BodySimulation

variable (sim : BodySimulation setting setting' Body Rel)
include sim

/-- What is asked of a statement is only that a body it defines is as it must be. -/
theorem writes : WriteSimulation setting setting' (Statement.Defines Body) Body Rel where
  toPartSimulation := sim.toPartSimulation
  assign value _ := sim.assign _ value
  define h := sim.define _ (h _ _ rfl)
  nested := sim.nested

/-- The runs of a statement are related when the bodies it defines are as they must be. -/
theorem statement {entry : Entry ω} {entry' : Entry ω'}
    (hentry : ∀ name body, Body body → Rel (entry name body) (entry' name body))
    (s : Statement) (hdefine : s.Defines Body)
    (hnested : ∀ node ∈ s.nested, node.statement.Defines Body) :
    Rel (s.run setting entry) (s.run setting' entry') :=
  sim.writes.statement hentry s hdefine hnested

/-- The runs of nodes are related when the bodies they define are as they must be. -/
theorem nodes {entry : Entry ω} {entry' : Entry ω'}
    (hentry : ∀ name body, Body body → Rel (entry name body) (entry' name body))
    (list : List Node) (h : DefinesOnly Body list) :
    Rel (runNodes setting entry list) (runNodes setting' entry' list) :=
  sim.writes.nodes hentry list h

/-- Bodies that define proper procedures only are related. -/
theorem body {entry : Entry ω} {entry' : Entry ω'}
    (hentry : ∀ name body, Body body → Rel (entry name body) (entry' name body))
    (list : List Node) (h : DefinesOnly Body list) :
    Rel (runBody setting entry list) (runBody setting' entry' list) :=
  sim.writes.body hentry list h

end BodySimulation

namespace Simulation

variable (sim : Simulation setting setting' Body Rel)
include sim

/-- Entries to a procedure with a proper body are related, however many more may become active. -/
theorem enter (depth : Nat) (name : String) (list : List Node) (h : Body list) :
    Rel (RobotBench.enter setting depth name list)
      (RobotBench.enter setting' depth name list) :=
  sim.writes.enter sim.procedure depth name list h

/-- Runs of a script that defines proper procedures only are related. -/
theorem script (script : Script) (h : DefinesOnly Body script) :
    Rel (script.run setting) (script.run setting') :=
  sim.writes.script sim.procedure script h

/-- Calls of a procedure from outside are related. -/
theorem call_procedure (name : String) :
    Rel (callProcedure setting name) (callProcedure setting' name) :=
  sim.writes.call_procedure sim.procedure name

end Simulation

end

/-! ## Runs with any procedures -/

namespace Simulation

section

variable {ω ω' : Type} {setting : Setting ω} {setting' : Setting ω'}
  {Rel : {α : Type} → Exec ω α → Exec ω' α → Prop}
  (sim : Simulation setting setting' (fun _ => True) Rel) (depth : Nat)
include sim

/-- Runs of a statement are related, whatever procedures there are. -/
theorem statement_at (s : Statement) :
    Rel (s.run setting (RobotBench.enter setting depth))
      (s.run setting' (RobotBench.enter setting' depth)) :=
  sim.toBodySimulation.statement (fun name body h => sim.enter depth name body h) s
    (fun _ _ _ => trivial) fun _ _ _ _ _ => trivial

/-- Runs of a node are related. -/
theorem node_at (node : Node) :
    Rel (node.run setting (RobotBench.enter setting depth))
      (node.run setting' (RobotBench.enter setting' depth)) := by
  obtain ⟨line, s⟩ := node
  exact sim.under (.line line) (sim.bind sim.step fun _ => sim.statement_at depth s)

/-- Runs of nodes are related. -/
theorem nodes_at (list : List Node) :
    Rel (runNodes setting (RobotBench.enter setting depth) list)
      (runNodes setting' (RobotBench.enter setting' depth) list) :=
  sim.toBodySimulation.nodes (fun name body h => sim.enter depth name body h) list
    fun _ _ _ _ _ => trivial

/-- Runs of a block are related. -/
theorem block_at (list : List Node) :
    Rel (inBlock setting (runNodes setting (RobotBench.enter setting depth) list))
      (inBlock setting' (runNodes setting' (RobotBench.enter setting' depth) list)) :=
  sim.in_block (sim.nodes_at depth list)

/-- Tests of a condition are related. -/
theorem test_at (c : Condition) :
    Rel (c.test setting (RobotBench.enter setting depth))
      (c.test setting' (RobotBench.enter setting' depth)) :=
  sim.test (fun name body h => sim.enter depth name body h) c

/-- Counts are related. -/
theorem read_count_at (operand : Atom) :
    Rel (readCount setting (RobotBench.enter setting depth) operand)
      (readCount setting' (RobotBench.enter setting' depth) operand) :=
  sim.read_count (fun name body h => sim.enter depth name body h) operand

end

end Simulation

end RobotBench
