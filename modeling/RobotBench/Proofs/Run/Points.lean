import RobotBench.Proofs.Run.Advance
import RobotBench.Proofs.Run.Evaluations

/-!
# The points that a run comes to

A run of nodes comes to points where a statement is about to evaluate what it evaluates, in a loop
or a procedure maybe. `Comes` says how, with the machine there and the path of the lines and
procedures that are active. What happens at such a point is a part of the run (`Comes.within`): a
failure there is one of the whole run, and the run only goes on from where the evaluation has
ended. Each failure that is not for want of steps has such a point (`FaultIn.comes`). A run that
does what another one does, as long as that one succeeds, comes to the points that the other one
comes to (`Comes.carried`).
-/

namespace RobotBench

variable {ω : Type}

/-! ## Parts of an execution -/

namespace Exec

section

variable (setting : Setting ω) {α β γ : Type}

/-- The execution makes changes only that runs make: it leads wherever all of them lead. -/
def MadeOf (x : Exec ω α) : Prop := ∀ R, setting.Respects R → x.Leads R

/-- The first execution, begun in the first machine, is at the second one in the second machine,
below the path. A fault there stops it where it occurs, and otherwise it only goes on. -/
structure Within (path : List Frame) (x : Exec ω α) (m : Machine ω) (y : Exec ω β)
    (m' : Machine ω) : Prop where
  fails {f : Fault} {m₁ : Machine ω} : y m' = (.error (.fault f), m₁) →
    x m = (.error (.fault ⟨path ++ f.path, f.cause⟩), m₁)
  leads {R : Machine ω → Machine ω → Prop} : setting.Respects R → R (y m').2 (x m).2

variable {setting}

namespace MadeOf

/-- Doing nothing is no change. -/
theorem pure (a : α) : (pure a : Exec ω α).MadeOf setting := fun _ h => h.pure a

/-- A failure changes nothing more. -/
theorem fail (cause : Cause) : (Exec.fail cause : Exec ω α).MadeOf setting := fun _ h => h.refl

/-- Counting a step is a change that runs make. -/
theorem step : (countStep setting).MadeOf setting := fun _ h => h.step

/-- What only computes a value changes nothing. -/
theorem of_computes {x : Exec ω α} (hx : ∀ m, x.Computes m) : x.MadeOf setting := by
  intro R h m
  rw [(hx m).machine]
  exact h.refl m

/-- Two executions in a row make the changes of both. -/
theorem bind {x : Exec ω α} {f : α → Exec ω β} (hx : x.MadeOf setting)
    (hf : ∀ a, (f a).MadeOf setting) : (x >>= f).MadeOf setting :=
  fun R h => h.bind (hx R h) fun a => hf a R h

/-- A repetition makes the changes of its body. -/
theorem times {body : Exec ω Flow} (hbody : body.MadeOf setting) (count : Nat) :
    (Exec.times body count).MadeOf setting :=
  fun R h => h.times (hbody R h) count

/-- A loop makes the changes of its test, its body and what comes between two rounds. -/
theorem whilst {test : Exec ω Bool} {body : Exec ω Flow} {pause : Exec ω Unit}
    (htest : test.MadeOf setting) (hbody : body.MadeOf setting) (hpause : pause.MadeOf setting)
    (rounds : Nat) : (Exec.whilst test body pause rounds).MadeOf setting :=
  fun R h => h.whilst (htest R h) (hbody R h) (hpause R h) rounds

/-- The test of a condition is a part of runs. -/
theorem test (depth : Nat) (c : Condition) :
    (c.test setting (enter setting depth)).MadeOf setting :=
  fun _ h => h.test depth c

/-- A block is a part of runs. -/
theorem block (depth : Nat) (body : List Node) :
    (inBlock setting (runNodes setting (enter setting depth) body)).MadeOf setting :=
  fun _ h => h.block depth body

/-- A statement is a part of runs. -/
theorem statement (depth : Nat) (s : Statement) :
    (s.run setting (enter setting depth)).MadeOf setting :=
  fun _ h => h.statement depth s

/-- Nodes are a part of runs. -/
theorem nodes (depth : Nat) (list : List Node) :
    (runNodes setting (enter setting depth) list).MadeOf setting :=
  fun _ h => h.nodes depth list

end MadeOf

namespace Within

variable {path inner : List Frame} {x : Exec ω α} {y : Exec ω β} {z : Exec ω γ}
  {m m₁ m₂ : Machine ω}

/-- An execution is at one that ends with the same value in the same machine. -/
theorem of_eq {x y : Exec ω α} (h : x m = y m₁) : Within setting [] x m y m₁ where
  fails hy := h.trans hy
  leads hR := by
    rw [h]
    exact hR.refl _

/-- Every execution begins where nothing has been done. -/
theorem nothing (hx : x.MadeOf setting) (a : β) : Within setting [] x m (Pure.pure a) m where
  fails ha := absurd (congrArg Prod.fst ha) nofun
  leads {R} hR := hx R hR m

/-- What is inside of a part is inside of the whole, below both paths. -/
theorem trans (h : Within setting path x m y m₁) (h' : Within setting inner y m₁ z m₂) :
    Within setting (path ++ inner) x m z m₂ where
  fails hz := by
    rw [List.append_assoc]
    exact h.fails (h'.fails hz)
  leads hR := hR.trans (h'.leads hR) (h.leads hR)

/-- Two executions in a row begin with the first of them. -/
theorem bind {f : α → Exec ω β} (hf : ∀ a, (f a).MadeOf setting) :
    Within setting [] (x >>= f) m x m where
  fails hx := bind_error hx
  leads {R} hR := by
    rw [bind_apply]
    rcases x m with ⟨halt | a, m₁⟩
    · exact hR.refl m₁
    · exact hf a R hR m₁

/-- What an execution does with the value of its first part does not matter to the part. -/
theorem drop {f : α → Exec ω β} (hf : ∀ a, (f a).MadeOf setting) :
    Within setting [] (x >>= f) m (x >>= fun _ => Pure.pure ()) m where
  fails {_ m₁} hx := by
    rw [bind_apply] at hx ⊢
    rcases hrun : x m with ⟨halt | a, m₂⟩
    · rw [hrun] at hx
      cases hx
      rfl
    · rw [hrun] at hx
      cases hx
  leads {R} hR := by
    rw [bind_apply, bind_apply]
    rcases x m with ⟨halt | a, m₁⟩
    · exact hR.refl m₁
    · exact hf a R hR m₁

/-- An execution below a frame is at the execution itself. -/
theorem under (frame : Frame) : Within setting [frame] (x.under frame) m x m where
  fails hx := by
    rw [under_apply, hx]
    rfl
  leads hR := by
    rw [under_apply]
    exact hR.refl _

/-! ### Loops -/

section

variable {test : Exec ω Bool} {body : Exec ω Flow} {pause : Exec ω Unit}

/-- A repeated body is at a round of its own after those before it. -/
theorem times (hbody : body.MadeOf setting) {laps count : Nat}
    (hrounds : Laps (Pure.pure true) body (Pure.pure ()) laps m m₁) (hlaps : laps < count) :
    Within setting [] (Exec.times body count) m body m₁ := by
  obtain ⟨more, hmore⟩ := hrounds.times_eq hlaps
  rw [times_succ] at hmore
  refine (of_eq hmore).trans (.bind fun flow => ?_)
  cases flow with
  | next => exact hbody.times more
  | leave => exact .pure _
  | answer value => exact .pure _

variable (htest : test.MadeOf setting) (hbody : body.MadeOf setting)
  (hpause : pause.MadeOf setting) {laps rounds : Nat} (hrounds : Laps test body pause laps m m₁)
  (hlaps : laps < rounds)
include htest hbody hpause hrounds hlaps

/-- A loop is at the body of a round when the test of the round has held. -/
theorem whilst_body (hheld : test m₁ = (.ok true, m₂)) :
    Within setting [] (Exec.whilst test body pause rounds) m body m₂ := by
  obtain ⟨more, hmore⟩ := hrounds.whilst_eq hlaps
  rw [whilst_succ, bind_ok hheld] at hmore
  refine (of_eq hmore).trans (.bind fun flow => ?_)
  cases flow with
  | next => exact hpause.bind fun _ => htest.whilst hbody hpause more
  | leave => exact .pure _
  | answer value => exact .pure _

/-- A loop is at the test of a round after those before it. -/
theorem whilst_test :
    Within setting [] (Exec.whilst test body pause rounds) m
      (test >>= fun _ => Pure.pure ()) m₁ := by
  obtain ⟨more, hmore⟩ := hrounds.whilst_eq hlaps
  rw [whilst_succ] at hmore
  refine (of_eq hmore).trans (.drop fun holds => ?_)
  cases holds with
  | false => exact .pure _
  | true =>
      refine hbody.bind fun flow => ?_
      cases flow with
      | next => exact hpause.bind fun _ => htest.whilst hbody hpause more
      | leave => exact .pure _
      | answer value => exact .pure _

end

end Within

end

end Exec

section

variable {setting : Setting ω} {depth : Nat} {m m' : Machine ω}

/-- A statement is at what it evaluates, in the rounds of its loop as well. -/
theorem Statement.EvaluatesAt.within {s : Statement}
    (hat : s.EvaluatesAt setting (enter setting depth) m m') :
    Exec.Within setting [] (s.run setting (enter setting depth)) m
      (s.head setting (enter setting depth)) m' := by
  cases hat with
  | again hlaps hrounds => exact .whilst_test (.test depth _) (.block depth _) .step hrounds hlaps
  | once hs =>
      cases s with
      | assign name value =>
          exact .drop fun value => .bind (fun _ h => h.assign name value) fun _ => .pure _
      | call c => exact .drop fun _ => .pure _
      | repeated operand body => exact .drop fun count => .times (.block depth body) count
      | whilst condition body => exact absurd trivial hs
      | branch condition yes no =>
          refine .drop fun holds => ?_
          cases holds with
          | true => exact .block depth yes
          | false => exact .block depth no
      | answer value =>
          cases value with
          | some operand => exact .drop fun _ => .pure _
          | none => exact .nothing (.statement depth _) ()
      | _ => exact .nothing (.statement depth _) ()

/-- A statement is at each block that it runs. -/
theorem Statement.BlockAt.within {s : Statement} {body : List Node}
    (hat : s.BlockAt setting (enter setting depth) m body m') :
    Exec.Within setting [] (s.run setting (enter setting depth)) m
      (inBlock setting (runNodes setting (enter setting depth) body)) m' := by
  cases hat with
  | repeated hcount hlaps hrounds =>
      exact (Exec.Within.of_eq (Exec.bind_ok hcount)).trans
        (.times (.block depth body) hrounds hlaps)
  | loop hlaps hrounds =>
      rw [Statement.run, Exec.forever_eq_whilst]
      exact .whilst_body (.pure true) (.block depth body) .step hrounds hlaps rfl
  | whilst hlaps hrounds htest =>
      exact .whilst_body (.test depth _) (.block depth body) .step hrounds hlaps htest
  | yes htest => exact .of_eq (Exec.bind_ok htest)
  | no htest => exact .of_eq (Exec.bind_ok htest)

/-- After its step a node is at its statement, below its line. -/
theorem Node.within {line : Nat} {s : Statement} (hstep : countStep setting m = (.ok (), m')) :
    Exec.Within setting [.line line] ((Node.mk line s).run setting (enter setting depth)) m
      (s.run setting (enter setting depth)) m' :=
  (Exec.Within.under (.line line)).trans (.of_eq (Exec.bind_ok hstep))

/-- Nodes are at the one that they arrive at, those before it having ended. -/
theorem Arrives.within {nodes : List Node} {node : Node}
    (hat : Arrives setting (enter setting depth) nodes m node m') :
    Exec.Within setting [] (runNodes setting (enter setting depth) nodes) m
      (node.run setting (enter setting depth)) m' := by
  induction hat with
  | first node more m =>
      refine .bind fun flow => ?_
      cases flow with
      | next => exact .nodes depth more
      | leave => exact .pure _
      | answer value => exact .pure _
  | later hfirst _ ih => exact (Exec.Within.of_eq (Exec.bind_ok hfirst)).trans ih

end

/-! ## Points -/

/-- A point of a run: the path of active lines and procedures, how many more procedures may become
active, the statement that is about to evaluate something, and the machine. -/
structure Point (ω : Type) where
  path : List Frame
  left : Nat
  statement : Statement
  machine : Machine ω

/-- The point seen from one step further out. -/
def Point.under (frame : Frame) (p : Point ω) : Point ω := { p with path := frame :: p.path }

/-- What the statement of a point evaluates. -/
def Point.head (setting : Setting ω) (p : Point ω) : Exec ω Unit :=
  p.statement.head setting (enter setting p.left)

section

variable (setting : Setting ω)

/-- The run of nodes from a machine, when so many procedures may still become active, comes to a
point: at one of the nodes, in a block of it below its line, or in the body of a procedure that it
calls, below the line and the procedure. -/
inductive Comes : Nat → List Node → Machine ω → Point ω → Prop
  | here {depth line : Nat} {nodes : List Node} {s : Statement} {m m₁ m₂ m₃ : Machine ω}
      (hat : Arrives setting (enter setting depth) nodes m (.mk line s) m₁)
      (hstep : countStep setting m₁ = (.ok (), m₂))
      (heval : s.EvaluatesAt setting (enter setting depth) m₂ m₃) :
      Comes depth nodes m ⟨[.line line], depth, s, m₃⟩
  | block {depth line : Nat} {nodes body : List Node} {s : Statement} {m m₁ m₂ m₃ : Machine ω}
      {p : Point ω} (hat : Arrives setting (enter setting depth) nodes m (.mk line s) m₁)
      (hstep : countStep setting m₁ = (.ok (), m₂))
      (hblock : s.BlockAt setting (enter setting depth) m₂ body m₃)
      (hinner : Comes depth body (m₃.watched setting.host .openBlock) p) :
      Comes depth nodes m (p.under (.line line))
  | call {depth line : Nat} {nodes body : List Node} {s : Statement} {name : String}
      {m m₁ m₂ m₃ : Machine ω} {p : Point ω}
      (hat : Arrives setting (enter setting (depth + 1)) nodes m (.mk line s) m₁)
      (hstep : countStep setting m₁ = (.ok (), m₂))
      (heval : s.EvaluatesAt setting (enter setting (depth + 1)) m₂ m₃)
      (hcallee : s.callee? = some name) (harguments : s.arguments = [])
      (hbody : m₃.names.procedures.find? name = some body)
      (hinner : Comes depth body
        ((m₃.watched setting.host (.enter name body)).watched setting.host .openBlock) p) :
      Comes (depth + 1) nodes m ((p.under (.procedure name)).under (.line line))

variable {setting} {depth : Nat} {nodes : List Node} {m : Machine ω} {p : Point ω}

/-- Whatever every change respects leads to the points that a run comes to. -/
theorem Comes.related {R : Machine ω → Machine ω → Prop} (h : setting.Respects R)
    (hcomes : Comes setting depth nodes m p) : R m p.machine := by
  induction hcomes with
  | here hat hstep heval =>
      exact h.trans (hat.related h) (h.trans (h.step.related hstep) (heval.related h))
  | block hat hstep hblock _ ih =>
      have hthere := h.trans (hat.related h) (h.trans (h.step.related hstep) (hblock.related h))
      exact h.trans hthere (h.trans (h.watch _ _) ih)
  | call hat hstep heval _ _ _ _ ih =>
      have hthere := h.trans (hat.related h) (h.trans (h.step.related hstep) (heval.related h))
      exact h.trans hthere (h.trans (h.watch _ _) (h.trans (h.watch _ _) ih))

/-! ### What happens at a point -/

/-- A call without arguments enters the procedure that it names. -/
theorem call_procedure_apply {entry : Entry ω} {name : String} {body : List Node}
    (hbody : m.names.procedures.find? name = some body) :
    (⟨name, []⟩ : Call).run setting entry m = entry name body m :=
  (call_run_apply setting entry ⟨name, []⟩ m).trans
    (call_named_procedure setting entry hbody .none)

section

variable (hwatch : ∀ event world, setting.host.watch event world = world)
include hwatch

/-- A host that watches nothing leaves the machine as it is. -/
theorem Machine.watched_eq (event : Event) (m : Machine ω) : m.watched setting.host event = m := by
  unfold Machine.watched
  rw [hwatch]

/-- A block that nobody watches is what is in it. -/
theorem in_block_eq (x : Exec ω Flow) : inBlock setting x = x :=
  Exec.between_unwatched hwatch _ _ x

/-- A procedure that is entered is at its body. -/
theorem procedure_within (name : String) (body : List Node) :
    Exec.Within setting [.procedure name] (enter setting (depth + 1) name body) m
      (runNodes setting (enter setting depth) body) m := by
  have hinside : Exec.between setting.host (.enter name body) (.exit name)
      (runBody setting (enter setting depth) body) =
        runNodes setting (enter setting depth) body := by
    rw [Exec.between_unwatched hwatch, runBody, in_block_eq hwatch]
  rw [enter, hinside]
  exact (Exec.Within.bind fun _ => .pure _).trans (.under (.procedure name))

/-- A script is at its nodes. -/
theorem Script.within (script : Script) :
    Exec.Within setting [] (script.run setting) m
      (runNodes setting (enter setting maxCallDepth) script) m := by
  rw [Script.run, runBody, in_block_eq hwatch]
  refine .bind fun flow => ?_
  cases flow with
  | next => exact .pure _
  | leave => exact .fail _
  | answer value => exact .fail _

/-- A statement that calls a procedure is at its body in what it evaluates. -/
theorem Statement.head_within {s : Statement} {name : String} {body : List Node}
    (hcallee : s.callee? = some name) (harguments : s.arguments = [])
    (hbody : m.names.procedures.find? name = some body) :
    Exec.Within setting [.procedure name] (s.head setting (enter setting (depth + 1))) m
      (runNodes setting (enter setting depth) body) m := by
  have hcalls : (s.head setting (enter setting (depth + 1))).Calls setting
      (enter setting (depth + 1)) ⟨name, s.arguments⟩ m :=
    Statement.head_calls hcallee (callable_of_find hbody)
  obtain ⟨k, hk, hhead⟩ := hcalls
  rw [harguments] at hhead
  have hcall : Exec.Within setting [] (s.head setting (enter setting (depth + 1))) m _ m :=
    (Exec.Within.of_eq hhead).trans (.bind fun value => .of_computes (hk value))
  exact (hcall.trans (.of_eq (call_procedure_apply hbody))).trans
    (procedure_within hwatch name body)

/-- What happens at a point happens in the run, below the path to the point. -/
theorem Comes.within (h : Comes setting depth nodes m p) :
    Exec.Within setting p.path (runNodes setting (enter setting depth) nodes) m
      (p.head setting) p.machine := by
  induction h with
  | here hat hstep heval => exact (hat.within.trans (Node.within hstep)).trans heval.within
  | block hat hstep hblock _ ih =>
      rw [Machine.watched_eq hwatch] at ih
      have hinside := hblock.within.trans (.of_eq (congrFun (in_block_eq hwatch _) _))
      exact ((hat.within.trans (Node.within hstep)).trans hinside).trans ih
  | call hat hstep heval hcallee harguments hbody _ ih =>
      rw [Machine.watched_eq hwatch, Machine.watched_eq hwatch] at ih
      have hinside := heval.within.trans (Statement.head_within hwatch hcallee harguments hbody)
      exact ((hat.within.trans (Node.within hstep)).trans hinside).trans ih

end

/-! ### Failures have points -/

/-- Arguments with one more are not empty. -/
theorem Arguments.push_ne_empty (a : Arguments) (key : Option String) (value : Value) :
    (a.push key value).isEmpty = false := by
  cases key with
  | none => simp [push, isEmpty]
  | some key =>
      have hself := Table.lookup_place_self key value a.keyword.entries
      cases hplace : Table.place key value a.keyword.entries with
      | nil =>
          rw [hplace] at hself
          cases hself
      | cons entry more => simp [push, isEmpty, Table.set, hplace]

/-- Where no argument is given there is none in the call. -/
theorem gather_empty {names : Namespace} {arguments : List Argument} {done given : Arguments}
    (h : gather names arguments done = .ok given) (hgiven : given.isEmpty) :
    done.isEmpty ∧ arguments = [] := by
  induction arguments generalizing done with
  | nil =>
      cases h
      exact ⟨hgiven, rfl⟩
  | cons argument more ih =>
      rw [gather] at h
      split at h
      · have hpushed := (ih h).1
        rw [Arguments.push_ne_empty] at hpushed
        cases hpushed
      · cases h

/-- A call that fails in a procedure is made without arguments. -/
theorem call_fault_arguments {entry : Entry ω} {c : Call} {f : Fault}
    (h : (c.run setting entry).Faults m f) (hpath : f.path ≠ []) : c.arguments = [] := by
  unfold Exec.Faults at h
  rw [call_run_apply] at h
  cases hgiven : gather m.names c.arguments .none with
  | error cause =>
      rw [hgiven] at h
      cases h
      exact absurd rfl hpath
  | ok given =>
      rw [hgiven] at h
      obtain ⟨name, body, hname, hbody, -⟩ := (call_named_fault h).resolve_left hpath
      cases hname
      simp only at h
      rw [call_named_procedure setting entry hbody] at h
      split at h
      · rename_i hempty
        exact (gather_empty hgiven hempty).2
      · cases h
        exact absurd rfl hpath

/-- A statement that fails in a procedure calls it without arguments. -/
theorem Statement.head_fault_arguments {entry : Entry ω} {s : Statement} {f : Fault}
    (h : (s.head setting entry).Faults m f) (hpath : f.path ≠ []) : s.arguments = [] := by
  rcases (s.head_evaluates setting entry m).fault h with ⟨hown, -⟩ | ⟨name, -, hcall⟩
  · exact absurd hown hpath
  · exact call_fault_arguments hcall hpath

/-- A failure that is not for want of steps has a point, where it is one of what the statement
evaluates and not of a procedure further in. -/
theorem FaultIn.comes {f : Fault} (h : FaultIn setting depth nodes m f)
    (hcause : ¬ f.cause.IsStepLimit) :
    ∃ p : Point ω, Comes setting depth nodes m p ∧ p.path = f.path ∧
      (p.head setting).Faults p.machine ⟨[], f.cause⟩ := by
  induction h with
  | own hat hown =>
      cases hown with
      | step h =>
          obtain ⟨limit, hlimit⟩ := h.step_limit
          cases hlimit
          exact absurd trivial hcause
      | head hstep heval h => exact ⟨_, .here hat hstep heval, rfl, h⟩
      | pause hstep hpause h =>
          obtain ⟨limit, hlimit⟩ := h.step_limit
          cases hlimit
          exact absurd trivial hcause
  | block hat hstep hblock _ ih =>
      obtain ⟨p, hcomes, hpath, hhead⟩ := ih hcause
      exact ⟨_, .block hat hstep hblock hcomes, congrArg _ hpath, hhead⟩
  | call hat hstep heval hhead hcallee hbody _ ih =>
      obtain ⟨p, hcomes, hpath, hp⟩ := ih hcause
      have harguments := Statement.head_fault_arguments hhead (List.cons_ne_nil _ _)
      exact ⟨_, .call hat hstep heval hcallee harguments hbody hcomes,
        congrArg _ (congrArg _ hpath), hp⟩

end

/-! ### Points of two runs -/

/-- Where the execution succeeds, it does the same from the changed machine and leads to the
machine changed likewise. -/
def Exec.Carried (change : Machine ω → Machine ω) {α : Type} (x : Exec ω α) : Prop :=
  ∀ ⦃m m' a⦄, x m = (.ok a, m') → x (change m) = (.ok a, change m')

/-- A relation of executions by which all that succeeds is carried over to changed machines, which
have the same names. -/
structure Setting.Carries (setting : Setting ω) (change : Machine ω → Machine ω)
    (Rel : {α : Type} → Exec ω α → Exec ω α → Prop) : Prop
    extends Simulation setting setting (fun _ => True) Rel where
  carried {α : Type} {x : Exec ω α} : Rel x x → x.Carried change
  same_names (m : Machine ω) : (change m).names = m.names
  watched (event : Event) (m : Machine ω) :
    (change m).watched setting.host event = change (m.watched setting.host event)

section

variable {setting : Setting ω} {change : Machine ω → Machine ω}
  {Rel : {α : Type} → Exec ω α → Exec ω α → Prop} (h : setting.Carries change Rel) {depth : Nat}
  {m m' : Machine ω}

/-- The rounds of a loop are the same from the changed machine. -/
theorem Exec.Laps.carried {test : Exec ω Bool} {body : Exec ω Flow} {pause : Exec ω Unit}
    (htest : test.Carried change) (hbody : body.Carried change) (hpause : pause.Carried change)
    {laps : Nat} (hlaps : Laps test body pause laps m m') :
    Laps test body pause laps (change m) (change m') := by
  induction hlaps with
  | none m => exact .none (change m)
  | round h₁ h₂ h₃ _ ih => exact .round (htest h₁) (hbody h₂) (hpause h₃) ih

include h

/-- Counting a step is carried over. -/
theorem Setting.Carries.count_step : (countStep setting).Carried change := h.carried h.step

/-- The test of a loop without a condition is carried over. -/
theorem Setting.Carries.true_test : (pure true : Exec ω Bool).Carried change :=
  h.carried (h.pure true)

/-- The test of a condition is carried over. -/
theorem Setting.Carries.test (c : Condition) :
    (c.test setting (enter setting depth)).Carried change :=
  h.carried (h.test_at depth c)

/-- A block is carried over. -/
theorem Setting.Carries.block_run (body : List Node) :
    (inBlock setting (runNodes setting (enter setting depth) body)).Carried change :=
  h.carried (h.block_at depth body)

/-- A statement evaluates at the changed machine what it evaluates at the machine. -/
theorem Statement.EvaluatesAt.carried {s : Statement}
    (hat : s.EvaluatesAt setting (enter setting depth) m m') :
    s.EvaluatesAt setting (enter setting depth) (change m) (change m') := by
  cases hat with
  | once hs => exact .once hs _
  | again hlaps hrounds =>
      exact .again hlaps (hrounds.carried (h.test _) (h.block_run _) h.count_step)

/-- A statement runs from the changed machine the blocks that it runs from the machine. -/
theorem Statement.BlockAt.carried {s : Statement} {body : List Node}
    (hat : s.BlockAt setting (enter setting depth) m body m') :
    s.BlockAt setting (enter setting depth) (change m) body (change m') := by
  cases hat with
  | repeated hcount hlaps hrounds =>
      exact .repeated (h.carried (h.read_count_at depth _) hcount) hlaps
        (hrounds.carried h.true_test (h.block_run body) (h.carried (h.pure ())))
  | loop hlaps hrounds =>
      exact .loop hlaps (hrounds.carried h.true_test (h.block_run body) h.count_step)
  | whilst hlaps hrounds htest =>
      exact .whilst hlaps (hrounds.carried (h.test _) (h.block_run body) h.count_step)
        (h.test _ htest)
  | yes htest => exact .yes (h.test _ htest)
  | no htest => exact .no (h.test _ htest)

/-- Nodes arrive from the changed machine at the node that they arrive at from the machine. -/
theorem Arrives.carried {nodes : List Node} {node : Node}
    (hat : Arrives setting (enter setting depth) nodes m node m') :
    Arrives setting (enter setting depth) nodes (change m) node (change m') := by
  induction hat with
  | first node more m => exact .first node more (change m)
  | later hfirst _ ih => exact .later (h.carried (h.node_at depth _) hfirst) ih

/-- The run from the changed machine comes to the points that the run comes to, with their
machines changed likewise. -/
theorem Comes.carried {nodes : List Node} {p : Point ω} (hcomes : Comes setting depth nodes m p) :
    Comes setting depth nodes (change m) { p with machine := change p.machine } := by
  induction hcomes with
  | here hat hstep heval =>
      exact .here (hat.carried h) (h.count_step hstep) (heval.carried h)
  | block hat hstep hblock _ ih =>
      rw [← h.watched] at ih
      exact .block (hat.carried h) (h.count_step hstep) (hblock.carried h) ih
  | call hat hstep heval hcallee harguments hbody _ ih =>
      rw [← h.watched, ← h.watched] at ih
      rw [← h.same_names] at hbody
      exact .call (hat.carried h) (h.count_step hstep) (heval.carried h) hcallee harguments hbody ih

end

end RobotBench
