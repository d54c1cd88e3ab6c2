import RobotBench.Proofs.Run.Evaluations
import RobotBench.Proofs.Run.Flow
import RobotBench.Proofs.Script.Grammar

/-!
# The path to a fault

When a script fails, the path of its fault is that of the statements that were active: from a
statement of the top level to one in a block of it, or through a procedure that it called to
one in the body that the procedure had, and so on to the statement that raised the cause.
`FaultIn` says so with the machines in which everything begins, which are those of the run:
`nodes_fault` follows a failing run down, by induction on how many procedures may still become
active and on the nodes.
-/

namespace RobotBench

/-! ## Faults from what is called -/

section

variable {ω : Type} (setting : Setting ω) (entry : Entry ω)

/-- The fault has no path yet, or it is that of a procedure of a name that was called, in the
machine at hand. -/
def FromCall (callee : Option String) (m : Machine ω) (f : Fault) : Prop :=
  f.path = [] ∨ ∃ name body, callee = some name ∧
    m.names.procedures.find? name = some body ∧ (entry name body).Faults m f

variable {setting entry} {m : Machine ω} {f : Fault}

theorem call_named_fault {name : String} {arguments : Arguments}
    (h : (callNamed setting entry name arguments).Faults m f) :
    FromCall entry (some name) m f := by
  unfold Exec.Faults at h
  cases hfind : m.names.procedures.find? name with
  | some body =>
      rw [call_named_procedure setting entry hfind] at h
      split at h
      · exact .inr ⟨name, body, rfl, hfind, h⟩
      · cases h
        exact .inl rfl
  | none =>
      cases hact : setting.host.operation? name with
      | some act =>
          rw [call_named_operation setting entry hfind hact, run_operation_apply] at h
          refine .inl ?_
          rcases hresult : act arguments (setting.host.watch (.operation name) m.world) with
            ⟨cause | value, world⟩
          · rw [hresult] at h
            cases h
            rfl
          · rw [hresult] at h
            cases h
      | none =>
          rw [call_named_none setting entry hfind hact] at h
          cases h
          exact .inl rfl

theorem call_fault {c : Call} (h : (c.run setting entry).Faults m f) :
    FromCall entry (some c.name) m f := by
  unfold Exec.Faults at h
  rw [call_run_apply] at h
  split at h
  · exact call_named_fault h
  · cases h
    exact .inl rfl

/-- What is evaluated fails by itself or by the procedure that it calls. -/
theorem Exec.Evaluates.from_call {α : Type} {x : Exec ω α} {callee : Option String}
    {arguments : List Argument} (hx : x.Evaluates setting entry callee arguments m)
    (h : x.Faults m f) : FromCall entry callee m f := by
  rcases hx.fault h with ⟨hpath, -⟩ | ⟨name, rfl, hcall⟩
  · exact .inl hpath
  · exact call_fault hcall

/-! ## Where things begin in a statement -/

/-- The blocks of a statement that are run where it stands. The body of a procedure is not. -/
def Statement.blocks : Statement → List (List Node)
  | repeated _ body => [body]
  | loop body => [body]
  | whilst _ body => [body]
  | branch _ yes no => [yes, no]
  | _ => []

/-- The statement evaluates its condition in every round. -/
def Statement.IsWhilst : Statement → Prop
  | whilst _ _ => True
  | _ => False

variable (setting entry)

/-- The execution of a statement that begins in a machine begins to evaluate in another. A
`while` does so in every round, the others do at once. -/
inductive Statement.EvaluatesAt : Statement → Machine ω → Machine ω → Prop
  | once {s : Statement} (hs : ¬ s.IsWhilst) (m : Machine ω) : EvaluatesAt s m m
  | again {condition : Condition} {body : List Node} {laps : Nat} {m m' : Machine ω}
      (hlaps : laps < setting.rounds)
      (hrounds : Exec.Laps (condition.test setting entry)
        (inBlock setting (runNodes setting entry body)) (countStep setting) laps m m') :
      EvaluatesAt (.whilst condition body) m m'

/-- The execution of a statement that begins in a machine begins to run a block of the
statement in another. -/
inductive Statement.BlockAt : Statement → Machine ω → List Node → Machine ω → Prop
  | repeated {operand : Atom} {body : List Node} {count laps : Nat} {m m₁ m' : Machine ω}
      (hcount : readCount setting entry operand m = (.ok count, m₁)) (hlaps : laps < count)
      (hrounds : Exec.Laps (pure true) (inBlock setting (runNodes setting entry body)) (pure ())
        laps m₁ m') : BlockAt (.repeated operand body) m body m'
  | loop {body : List Node} {laps : Nat} {m m' : Machine ω} (hlaps : laps < setting.rounds)
      (hrounds : Exec.Laps (pure true) (inBlock setting (runNodes setting entry body))
        (countStep setting) laps m m') : BlockAt (.loop body) m body m'
  | whilst {condition : Condition} {body : List Node} {laps : Nat} {m m₁ m' : Machine ω}
      (hlaps : laps < setting.rounds)
      (hrounds : Exec.Laps (condition.test setting entry)
        (inBlock setting (runNodes setting entry body)) (countStep setting) laps m m₁)
      (htest : condition.test setting entry m₁ = (.ok true, m')) :
      BlockAt (.whilst condition body) m body m'
  | yes {condition : Condition} {yes no : List Node} {m m' : Machine ω}
      (htest : condition.test setting entry m = (.ok true, m')) :
      BlockAt (.branch condition yes no) m yes m'
  | no {condition : Condition} {yes no : List Node} {m m' : Machine ω}
      (htest : condition.test setting entry m = (.ok false, m')) :
      BlockAt (.branch condition yes no) m no m'

theorem Statement.BlockAt.mem_blocks {s : Statement} {body : List Node} {m m' : Machine ω}
    (h : s.BlockAt setting entry m body m') : body ∈ s.blocks := by
  cases h with
  | no htest => exact List.mem_cons_of_mem _ List.mem_cons_self
  | _ => exact List.mem_cons_self

/-- The execution of a loop that begins in a machine comes to the end of a round, after which
it counts a step, in another. -/
inductive Statement.PauseAt : Statement → Machine ω → Machine ω → Prop
  | loop {body : List Node} {m m₁ m' : Machine ω}
      (hblock : (Statement.loop body).BlockAt setting entry m body m₁)
      (hend : inBlock setting (runNodes setting entry body) m₁ = (.ok .next, m')) :
      PauseAt (.loop body) m m'
  | whilst {condition : Condition} {body : List Node} {m m₁ m' : Machine ω}
      (hblock : (Statement.whilst condition body).BlockAt setting entry m body m₁)
      (hend : inBlock setting (runNodes setting entry body) m₁ = (.ok .next, m')) :
      PauseAt (.whilst condition body) m m'

/-- A statement that is executed from a machine raises a cause itself: in its own step, in
what it evaluates, or in the step after a round. -/
inductive Statement.Raises (s : Statement) (m : Machine ω) (cause : Cause) : Prop
  | step (h : (countStep setting).Faults m ⟨[], cause⟩)
  | head {m₁ m₂ : Machine ω} (hstep : countStep setting m = (.ok (), m₁))
      (hat : s.EvaluatesAt setting entry m₁ m₂)
      (h : (s.head setting entry).Faults m₂ ⟨[], cause⟩)
  | pause {m₁ m₂ : Machine ω} (hstep : countStep setting m = (.ok (), m₁))
      (hat : s.PauseAt setting entry m₁ m₂) (h : (countStep setting).Faults m₂ ⟨[], cause⟩)

/-- A run of nodes comes to one of them in a machine, after those before it have ended with
`next`. -/
inductive Arrives : List Node → Machine ω → Node → Machine ω → Prop
  | first (node : Node) (more : List Node) (m : Machine ω) : Arrives (node :: more) m node m
  | later {first node : Node} {more : List Node} {m m₁ m' : Machine ω}
      (hfirst : first.run setting entry m = (.ok .next, m₁))
      (hmore : Arrives more m₁ node m') : Arrives (first :: more) m node m'

variable {setting entry}

/-- A statement fails, after its own step, in what it evaluates, in one of its blocks, or in
the step after a round. -/
theorem Statement.run_fault {s : Statement} (h : (s.run setting entry).Faults m f) :
    (∃ m₁, s.EvaluatesAt setting entry m m₁ ∧ (s.head setting entry).Faults m₁ f) ∨
    (∃ body m₁, s.BlockAt setting entry m body m₁ ∧
      (inBlock setting (runNodes setting entry body)).Faults m₁ f) ∨
    ∃ m₁, s.PauseAt setting entry m m₁ ∧ (countStep setting).Faults m₁ f := by
  have honce (hs : ¬ s.IsWhilst) : s.EvaluatesAt setting entry m m := .once hs m
  cases s with
  | assign name value =>
      rcases h.of_bind with hvalue | ⟨value, m₁, _, hlater⟩
      · exact .inl ⟨m, honce not_false, hvalue.bind _⟩
      · exact absurd hlater (by nofun)
  | call c =>
      exact .inl ⟨m, honce not_false, h.of_bind_pure.bind _⟩
  | define name body => cases h
  | repeated operand body =>
      rcases h.of_bind with hcount | ⟨count, m₁, hcount, htimes⟩
      · exact .inl ⟨m, honce not_false, hcount.bind _⟩
      · obtain ⟨laps, m₂, hlaps, hrounds, hbody⟩ := htimes.of_times
        exact .inr (.inl ⟨body, m₂, .repeated hcount hlaps hrounds, hbody⟩)
  | loop body =>
      -- a loop tests nothing: it is a `while` whose test cannot fail
      rw [Statement.run, Exec.forever_eq_whilst] at h
      obtain ⟨laps, m₁, hlaps, hrounds, htest | ⟨m₂, htest, hfails⟩⟩ := h.of_whilst
      · exact absurd htest Exec.not_faults_pure
      · cases htest
        rcases hfails with hbody | ⟨m₃, hbody, hpause⟩
        · exact .inr (.inl ⟨body, m₁, .loop hlaps hrounds, hbody⟩)
        · exact .inr (.inr ⟨m₃, .loop (.loop hlaps hrounds) hbody, hpause⟩)
  | whilst condition body =>
      obtain ⟨laps, m₁, hlaps, hrounds, htest | ⟨m₂, htest, hfails⟩⟩ := h.of_whilst
      · exact .inl ⟨m₁, .again hlaps hrounds, htest.bind _⟩
      · rcases hfails with hbody | ⟨m₃, hbody, hpause⟩
        · exact .inr (.inl ⟨body, m₂, .whilst hlaps hrounds htest, hbody⟩)
        · exact .inr (.inr ⟨m₃, .whilst (.whilst hlaps hrounds htest) hbody, hpause⟩)
  | branch condition yes no =>
      rcases h.of_bind with htest | ⟨holds, m₁, htest, hblock⟩
      · exact .inl ⟨m, honce not_false, htest.bind _⟩
      · cases holds with
        | true => exact .inr (.inl ⟨yes, m₁, .yes htest, hblock⟩)
        | false => exact .inr (.inl ⟨no, m₁, .no htest, hblock⟩)
  | leave => exact absurd h Exec.not_faults_pure
  | answer value =>
      cases value with
      | none => exact absurd h Exec.not_faults_pure
      | some operand =>
          exact .inl ⟨m, honce not_false, h.of_bind_pure.bind _⟩

/-- What a statement evaluates is part of its execution. -/
theorem Statement.EvaluatesAt.faults {s : Statement} {m' : Machine ω}
    (hat : s.EvaluatesAt setting entry m m') (h : (s.head setting entry).Faults m' f) :
    (s.run setting entry).Faults m f := by
  cases hat with
  | again hlaps hrounds =>
      obtain ⟨more, hmore⟩ := hrounds.whilst_eq hlaps
      unfold Exec.Faults
      rw [Statement.run, hmore, Exec.whilst_succ]
      exact h.of_bind_pure.bind _
  | once hs =>
      cases s with
      | assign name value => exact h.of_bind_pure.bind _
      | call c => exact h.of_bind_pure.bind _
      | repeated count body => exact h.of_bind_pure.bind _
      | whilst condition body => exact absurd trivial hs
      | branch condition yes no => exact h.of_bind_pure.bind _
      | answer value =>
          cases value with
          | some operand => exact h.of_bind_pure.bind _
          | none => exact absurd h Exec.not_faults_pure
      | _ => exact absurd h Exec.not_faults_pure

/-- A block of a statement is part of its execution. -/
theorem Statement.BlockAt.faults {s : Statement} {body : List Node} {m' : Machine ω}
    (hat : s.BlockAt setting entry m body m')
    (h : (inBlock setting (runNodes setting entry body)).Faults m' f) :
    (s.run setting entry).Faults m f := by
  unfold Exec.Faults
  cases hat with
  | repeated hcount hlaps hrounds =>
      obtain ⟨more, hmore⟩ := hrounds.times_eq hlaps
      rw [Statement.run, Exec.bind_ok hcount, hmore, Exec.times_succ]
      exact h.bind _
  | loop hlaps hrounds =>
      obtain ⟨more, hmore⟩ := hrounds.whilst_eq hlaps
      rw [Statement.run, Exec.forever_eq_whilst, hmore, Exec.whilst_succ]
      exact h.bind _
  | whilst hlaps hrounds htest =>
      obtain ⟨more, hmore⟩ := hrounds.whilst_eq hlaps
      rw [Statement.run, hmore, Exec.whilst_succ, Exec.bind_ok htest]
      exact h.bind _
  | yes htest =>
      rw [Statement.run, Exec.bind_ok htest]
      exact h
  | no htest =>
      rw [Statement.run, Exec.bind_ok htest]
      exact h

/-- The step after a round of a loop is part of its execution. -/
theorem Statement.PauseAt.faults {s : Statement} {m' : Machine ω}
    (hat : s.PauseAt setting entry m m') (h : (countStep setting).Faults m' f) :
    (s.run setting entry).Faults m f := by
  unfold Exec.Faults
  cases hat with
  | loop hblock hend =>
      cases hblock with
      | loop hlaps hrounds =>
          obtain ⟨more, hmore⟩ := hrounds.whilst_eq hlaps
          rw [Statement.run, Exec.forever_eq_whilst, hmore, Exec.whilst_succ,
            Exec.bind_ok (Exec.pure_apply true _)]
          simp only
          rw [Exec.bind_ok hend]
          exact h.bind _
  | whilst hblock hend =>
      cases hblock with
      | whilst hlaps hrounds htest =>
          obtain ⟨more, hmore⟩ := hrounds.whilst_eq hlaps
          rw [Statement.run, hmore, Exec.whilst_succ, Exec.bind_ok htest]
          simp only
          rw [Exec.bind_ok hend]
          exact h.bind _

/-- What a statement raises itself its execution fails with, its own step included. -/
theorem Statement.Raises.faults {s : Statement} {cause : Cause}
    (h : s.Raises setting entry m cause) :
    (countStep setting >>= fun _ => s.run setting entry).Faults m ⟨[], cause⟩ := by
  cases h with
  | step h => exact h.bind _
  | head hstep hat h =>
      unfold Exec.Faults
      rw [Exec.bind_ok hstep]
      exact hat.faults h
  | pause hstep hat h =>
      unfold Exec.Faults
      rw [Exec.bind_ok hstep]
      exact hat.faults h

/-- A node is part of the run of nodes that comes to it. -/
theorem Arrives.faults {nodes : List Node} {node : Node} {m' : Machine ω}
    (hat : Arrives setting entry nodes m node m') (h : (node.run setting entry).Faults m' f) :
    (runNodes setting entry nodes).Faults m f := by
  induction hat with
  | first node more m => exact h.bind _
  | later hfirst _ ih =>
      unfold Exec.Faults
      rw [runNodes, Exec.bind_ok hfirst]
      exact ih h

end

/-! ## The path -/

section

variable {ω : Type} (setting : Setting ω)

/-- The nodes, run from a machine when so many procedures may still become active, fail with a
fault whose path is that of the active statements. One of the nodes raises the cause itself; or
a fault of this kind is in a block of it, under its line; or it calls a procedure in what it
evaluates, and a fault of this kind is in the body that the procedure has then, under the
procedure and the line. -/
inductive FaultIn : Nat → List Node → Machine ω → Fault → Prop
  | own {depth line : Nat} {nodes : List Node} {s : Statement} {m m₁ : Machine ω} {cause : Cause}
      (hat : Arrives setting (enter setting depth) nodes m (.mk line s) m₁)
      (hown : s.Raises setting (enter setting depth) m₁ cause) :
      FaultIn depth nodes m ⟨[.line line], cause⟩
  | block {depth line : Nat} {nodes body : List Node} {s : Statement}
      {m m₁ m₂ m₃ : Machine ω} {inner : Fault}
      (hat : Arrives setting (enter setting depth) nodes m (.mk line s) m₁)
      (hstep : countStep setting m₁ = (.ok (), m₂))
      (hblock : s.BlockAt setting (enter setting depth) m₂ body m₃)
      (hinner : FaultIn depth body (m₃.watched setting.host .openBlock) inner) :
      FaultIn depth nodes m (inner.under (.line line))
  | call {depth line : Nat} {nodes body : List Node} {s : Statement} {name : String}
      {m m₁ m₂ m₃ : Machine ω} {inner : Fault}
      (hat : Arrives setting (enter setting (depth + 1)) nodes m (.mk line s) m₁)
      (hstep : countStep setting m₁ = (.ok (), m₂))
      (heval : s.EvaluatesAt setting (enter setting (depth + 1)) m₂ m₃)
      (hhead : (s.head setting (enter setting (depth + 1))).Faults m₃
        (inner.under (.procedure name)))
      (hcallee : s.callee? = some name)
      (hbody : m₃.names.procedures.find? name = some body)
      (hinner : FaultIn depth body
        ((m₃.watched setting.host (.enter name body)).watched setting.host .openBlock) inner) :
      FaultIn (depth + 1) nodes m ((inner.under (.procedure name)).under (.line line))

variable {setting} {depth : Nat} {m m₁ : Machine ω} {f : Fault}

theorem FaultIn.cons {first : Node} {more : List Node}
    (hfirst : first.run setting (enter setting depth) m = (.ok .next, m₁))
    (h : FaultIn setting depth more m₁ f) : FaultIn setting depth (first :: more) m f := by
  cases h with
  | own hat hown => exact .own (.later hfirst hat) hown
  | block hat hstep hblock hinner => exact .block (.later hfirst hat) hstep hblock hinner
  | call hat hstep heval hhead hcallee hbody hinner =>
      exact .call (.later hfirst hat) hstep heval hhead hcallee hbody hinner

/-- A procedure that is entered fails in its body. -/
theorem enter_succ_fault {name : String} {body : List Node}
    (h : (enter setting (depth + 1) name body).Faults m f) :
    ∃ inner, f = inner.under (.procedure name) ∧
      (runNodes setting (enter setting depth) body).Faults
        ((m.watched setting.host (.enter name body)).watched setting.host .openBlock) inner := by
  obtain ⟨inner, hinner, hbody⟩ :=
    (Exec.Faults.of_bind_pure h).of_under
  exact ⟨inner, hinner, hbody.of_between.of_between⟩

/-- A procedure that is called is refused, or fails in its body. -/
theorem enter_fault {name : String} {body : List Node}
    (h : (enter setting depth name body).Faults m f) :
    f.path = [] ∨ ∃ left inner, depth = left + 1 ∧ f = inner.under (.procedure name) ∧
      (runNodes setting (enter setting left) body).Faults
        ((m.watched setting.host (.enter name body)).watched setting.host .openBlock) inner := by
  cases depth with
  | zero => exact .inl (Exec.Faults.of_fail h)
  | succ left =>
      obtain ⟨inner, hinner, hbody⟩ := enter_succ_fault h
      exact .inr ⟨left, inner, rfl, hinner, hbody⟩

/-- A procedure that is called fails without a path for the depth of calls only. -/
theorem enter_refused {name : String} {body : List Node} {cause : Cause}
    (h : (enter setting depth name body).Faults m ⟨[], cause⟩) :
    cause = .callDepth name maxCallDepth := by
  cases depth with
  | zero =>
      cases h
      rfl
  | succ depth =>
      obtain ⟨inner, hinner, -⟩ := enter_succ_fault h
      cases hinner

mutual

/-- A block of a statement that fails has a path, when the bodies of the procedures that are
entered from it have one. -/
theorem Statement.block_fault
    (hlower : ∀ left, depth = left + 1 → ∀ body m f,
      (runNodes setting (enter setting left) body).Faults m f → FaultIn setting left body m f)
    (s : Statement) : ∀ body ∈ s.blocks, ∀ m f,
      (runNodes setting (enter setting depth) body).Faults m f →
        FaultIn setting depth body m f := by
  cases s with
  | repeated operand inside =>
      exact List.forall_mem_singleton.2 fun m f h => nodes_fault hlower inside h
  | loop inside => exact List.forall_mem_singleton.2 fun m f h => nodes_fault hlower inside h
  | whilst condition inside =>
      exact List.forall_mem_singleton.2 fun m f h => nodes_fault hlower inside h
  | branch condition yes no =>
      exact List.forall_mem_cons.2 ⟨fun m f h => nodes_fault hlower yes h,
        List.forall_mem_singleton.2 fun m f h => nodes_fault hlower no h⟩
  | _ => exact nofun
  termination_by structural s

/-- Nodes that fail have a path, when the bodies of the procedures that are entered from them
have one. -/
theorem nodes_fault
    (hlower : ∀ left, depth = left + 1 → ∀ body m f,
      (runNodes setting (enter setting left) body).Faults m f → FaultIn setting left body m f)
    (nodes : List Node) {m : Machine ω} {f : Fault}
    (h : (runNodes setting (enter setting depth) nodes).Faults m f) :
    FaultIn setting depth nodes m f := by
  cases nodes with
  | nil => exact absurd h Exec.not_faults_pure
  | cons node more =>
      obtain ⟨line, s⟩ := node
      have hat : Arrives setting (enter setting depth) _ m _ m := .first (.mk line s) more m
      rcases h.of_bind with hnode | ⟨flow, m₁, hnode, hlater⟩
      · obtain ⟨⟨path, cause⟩, rfl, hinside⟩ := hnode.of_under
        rcases hinside.of_bind with hstep | ⟨done, m₁, hstep, hrun⟩
        · obtain rfl : path = [] := hstep.of_step
          exact .own hat (.step hstep)
        · rcases s.run_fault hrun with ⟨m₂, heval, hhead⟩ | ⟨body, m₂, hblock, hbody⟩ |
            ⟨m₂, hpause, hagain⟩
          · rcases (s.head_evaluates _ _ m₂).from_call hhead with hown |
              ⟨name, body, hcallee, hfind, hcall⟩
            · obtain rfl : path = [] := hown
              exact .own hat (.head hstep heval hhead)
            · rcases enter_fault hcall with hown | ⟨left, inner, rfl, hinner, hbody⟩
              · -- the call was refused, which is a failure of the statement itself
                obtain rfl : path = [] := hown
                exact .own hat (.head hstep heval hhead)
              · rw [hinner] at hhead ⊢
                exact .call hat hstep heval hhead hcallee hfind (hlower left rfl body _ _ hbody)
          · exact .block hat hstep hblock (s.block_fault hlower body hblock.mem_blocks _ _ hbody)
          · obtain rfl : path = [] := hagain.of_step
            exact .own hat (.pause hstep hpause hagain)
      · cases flow with
        | next => exact (nodes_fault hlower more hlater).cons hnode
        | leave => exact absurd hlater Exec.not_faults_pure
        | answer value => exact absurd hlater Exec.not_faults_pure
  termination_by structural nodes

end

/-- Nodes that fail have a path, by induction on how many procedures may still become active. -/
theorem run_nodes_fault (depth : Nat) (nodes : List Node) {m : Machine ω} {f : Fault}
    (h : (runNodes setting (enter setting depth) nodes).Faults m f) :
    FaultIn setting depth nodes m f := by
  induction depth generalizing nodes m f with
  | zero => exact nodes_fault (fun left hleft => absurd hleft.symm (Nat.succ_ne_zero left)) nodes h
  | succ depth ih =>
      refine nodes_fault (fun left hleft body m f hbody => ?_) nodes h
      obtain rfl : depth = left := Nat.succ.inj hleft
      exact ih body hbody

/-- Nodes with the path of a fault fail with that fault. -/
theorem FaultIn.faults {nodes : List Node} (h : FaultIn setting depth nodes m f) :
    (runNodes setting (enter setting depth) nodes).Faults m f := by
  induction h with
  | own hat hown => exact hat.faults (hown.faults.under (.line _))
  | block hat hstep hblock _ ih =>
      refine hat.faults (Exec.Faults.under ?_ (.line _))
      unfold Exec.Faults
      rw [Exec.bind_ok hstep]
      exact hblock.faults ih
  | call hat hstep heval hhead _ _ _ _ =>
      refine hat.faults (Exec.Faults.under ?_ (.line _))
      unfold Exec.Faults
      rw [Exec.bind_ok hstep]
      exact heval.faults hhead

/-- Nodes fail with a fault exactly if it has the path of the active statements. -/
theorem fault_in_iff {nodes : List Node} :
    FaultIn setting depth nodes m f ↔ (runNodes setting (enter setting depth) nodes).Faults m f :=
  ⟨FaultIn.faults, run_nodes_fault depth nodes⟩

/-- The script of an accepted text fails with the path of the active statements. A call of a
defined procedure that fails does so with such a path behind the procedure. What is reported is
the path in words, a line or a procedure at a time, and then the cause. -/
theorem fault_path (setting : Setting ω) {text : String} {firstLine : Nat} {script : Script}
    (htext : Script.ofText text firstLine = .ok script) (start : Machine ω) :
    (∀ f m, script.run setting start = (.error (.fault f), m) →
      FaultIn setting maxCallDepth script (start.watched setting.host .openBlock) f) ∧
    (∀ name body, start.names.procedures.find? name = some body → ∀ f m,
      callProcedure setting name start = (.error (.fault f), m) →
        ∃ inner, f = inner.under (.procedure name) ∧ FaultIn setting (maxCallDepth - 1) body
          ((start.watched setting.host (.enter name body)).watched setting.host .openBlock)
          inner) ∧
    (∀ f : Fault, f.messages = f.path.map Frame.message ++ [f.cause.message]) ∧
    (∀ line, (Frame.line line).message = s!"payload line {line}") ∧
    ∀ name, (Frame.procedure name).message = s!"in procedure `{name}`" := by
  refine ⟨fun f m hrun => ?_, fun name body hfind f m hcall => ?_, fun _ => rfl, fun _ => rfl,
    fun _ => rfl⟩
  · have hfails : (script.run setting).Faults start f := congrArg Prod.fst hrun
    rcases hfails.of_bind with hbody | ⟨flow, m₁, hbody, hlater⟩
    · exact run_nodes_fault maxCallDepth script hbody.of_between
    · -- a scoped script does not end by `break` or `return`
      have hallowed := body_ends setting _ (of_text_scoped htext) start flow m₁ hbody
      cases flow with
      | next => exact absurd hlater Exec.not_faults_pure
      | leave => exact absurd hallowed Bool.false_ne_true
      | answer value => exact absurd hallowed Bool.false_ne_true
  · rw [callProcedure, Exec.bind_ok (Exec.get_apply start), hfind] at hcall
    have hfails : (enter setting (maxCallDepth - 1 + 1) name body).Faults start f :=
      congrArg Prod.fst hcall
    obtain ⟨inner, hinner, hbody⟩ := enter_succ_fault hfails
    exact ⟨inner, hinner, run_nodes_fault (maxCallDepth - 1) body hbody⟩

end

/-- An unknown operation in a loop of a procedure that the condition of a branch calls, and the
same procedure called once more. -/
theorem fault_path_nested :
    let setting : Setting Unit := ⟨⟨fun _ => none, fun _ world => world⟩, some 9, 9⟩
    let body : List Node := [.mk 2 (.loop [.mk 3 (.call ⟨"fly", []⟩)])]
    let script : Script := [.mk 1 (.define "f" body), .mk 6 (.branch (.truthy (.word "f")) [] [])]
    let start : Machine Unit := ⟨(), .empty, 0⟩
    let inner : Fault := ⟨[.line 2, .line 3], .unknownOperation "fly"⟩
    let after : Machine Unit := (script.run setting start).2
    Script.ofText "def f\nloop\nfly\nend\nend\nif f\nend" 1 = .ok script ∧
      FaultIn setting maxCallDepth script start ⟨[.line 6, .procedure "f", .line 2, .line 3],
        .unknownOperation "fly"⟩ ∧
      (callProcedure setting "f" after).1 = .error (.fault (inner.under (.procedure "f"))) ∧
      FaultIn setting (maxCallDepth - 1) body after inner := by
  intro setting body script start inner after
  have htext : Script.ofText "def f\nloop\nfly\nend\nend\nif f\nend" 1 = .ok script := rfl
  have hfind : after.names.procedures.find? "f" = some body := by rfl
  have hcall : (callProcedure setting "f" after).1 =
      .error (.fault (inner.under (.procedure "f"))) := by rfl
  obtain ⟨hscript, -⟩ := fault_path setting htext start
  obtain ⟨-, hprocedure, -⟩ := fault_path setting htext after
  obtain ⟨found, hfound, hin⟩ := hprocedure "f" body hfind _ _ (Prod.ext hcall rfl)
  have hsame : inner = found := by
    cases found
    cases hfound
    rfl
  exact ⟨htext, hscript _ after rfl, hcall, hsame ▸ hin⟩

end RobotBench
