import RobotBench.Script.Parser

/-!
# Where statements stand

`preorder` lists the nodes of a script with all that are nested in them, in the order in
which they are written. A `Scope` says what is around a statement: whether a loop of its
own procedure is, whether a procedure is, and how many blocks are. `Statement.Scoped` asks
for a loop around every `break`, a procedure around every `return`, and no more than
`maxBlockDepth` blocks around anything. What every statement hands down to the nodes that
stand in it directly `Descends` to all that are nested in it.
-/

namespace RobotBench

/-! ## Nested nodes -/

mutual

/-- The nodes nested in a statement, in the order written. -/
def Statement.nested : Statement → List Node
  | .define _ body => preorder body
  | .repeated _ body => preorder body
  | .loop body => preorder body
  | .whilst _ body => preorder body
  | .branch _ yes no => preorder yes ++ preorder no
  | .assign _ _ => []
  | .call _ => []
  | .leave => []
  | .answer _ => []
  termination_by structural statement => statement

/-- A node and the nodes nested in it, in the order written. -/
def Node.preorder : Node → List Node
  | .mk line statement => .mk line statement :: statement.nested
  termination_by structural node => node

/-- The nodes and all that are nested in them, in the order written. -/
def preorder : List Node → List Node
  | [] => []
  | node :: more => node.preorder ++ preorder more
  termination_by structural nodes => nodes

end

@[simp] theorem preorder_nil : preorder [] = [] := rfl

@[simp] theorem preorder_cons (node : Node) (more : List Node) :
    preorder (node :: more) = node :: (node.statement.nested ++ preorder more) := by
  cases node
  rfl

/-- The nodes that stand in a statement directly, block by block. -/
def Statement.bodies : Statement → List (List Node)
  | .define _ body => [body]
  | .repeated _ body => [body]
  | .loop body => [body]
  | .whilst _ body => [body]
  | .branch _ yes no => [yes, no]
  | .assign _ _ => []
  | .call _ => []
  | .leave => []
  | .answer _ => []

/-- What stands in a body of a statement is nested in the statement. -/
theorem Statement.preorder_subset_nested (s : Statement) {body : List Node}
    (h : body ∈ s.bodies) : preorder body ⊆ s.nested := by
  cases s with
  | branch condition yes no =>
      rcases List.mem_cons.1 h with rfl | h
      · exact List.subset_append_left _ _
      · obtain rfl := List.mem_singleton.1 h
        exact List.subset_append_right _ _
  | define | repeated | loop | whilst =>
      obtain rfl := List.mem_singleton.1 h
      exact List.Subset.refl _
  | assign | call | leave | answer => exact absurd h List.not_mem_nil

/-- What holds of nodes tells something of the first statement, and holds of its bodies and of
the nodes after it. -/
def Descends (P : List Node → Prop) (Q : Statement → Prop) : Prop :=
  ∀ line s more, P (.mk line s :: more) → Q s ∧ (∀ body ∈ s.bodies, P body) ∧ P more

mutual

theorem Descends.nested {P : List Node → Prop} {Q : Statement → Prop} (hdown : Descends P Q)
    (s : Statement) (h : ∀ body ∈ s.bodies, P body) : ∀ node ∈ s.nested, Q node.statement := by
  cases s with
  | define name body => exact hdown.preorder body (h _ List.mem_cons_self)
  | repeated count body => exact hdown.preorder body (h _ List.mem_cons_self)
  | loop body => exact hdown.preorder body (h _ List.mem_cons_self)
  | whilst condition body => exact hdown.preorder body (h _ List.mem_cons_self)
  | branch condition yes no =>
      obtain ⟨hyes, hno⟩ := List.forall_mem_cons.1 h
      exact List.forall_mem_append.2
        ⟨hdown.preorder yes hyes, hdown.preorder no (List.forall_mem_singleton.1 hno)⟩
  | assign name value => exact nofun
  | call c => exact nofun
  | leave => exact nofun
  | answer value => exact nofun
  termination_by structural s

/-- What holds of nodes holds of all bodies in them, however deep, so that what it tells of a
statement is true of every one. -/
theorem Descends.preorder {P : List Node → Prop} {Q : Statement → Prop} (hdown : Descends P Q)
    (nodes : List Node) (h : P nodes) : ∀ node ∈ preorder nodes, Q node.statement := by
  cases nodes with
  | nil => exact nofun
  | cons node more =>
      obtain ⟨line, s⟩ := node
      obtain ⟨hs, hbodies, hmore⟩ := hdown line s more h
      rw [preorder_cons]
      exact List.forall_mem_cons.2 ⟨hs, List.forall_mem_append.2
        ⟨hdown.nested s hbodies, hdown.preorder more hmore⟩⟩
  termination_by structural nodes

end

/-- What is nested in a statement of the nodes is among the nodes and what is nested in them. -/
theorem preorder_within (nodes : List Node) :
    ∀ node ∈ preorder nodes, node.statement.nested ⊆ preorder nodes := by
  have hdown : Descends (preorder · ⊆ preorder nodes) (Statement.nested · ⊆ preorder nodes) := by
    intro line s more h
    rw [preorder_cons] at h
    obtain ⟨hnested, hmore⟩ := List.append_subset.1 (List.cons_subset.1 h).2
    exact ⟨hnested, fun body hbody =>
      List.Subset.trans (s.preorder_subset_nested hbody) hnested, hmore⟩
  exact hdown.preorder nodes (List.Subset.refl _)

/-! ## Scopes -/

/-- What is around a statement: a loop of its own procedure, a procedure, and a number of
blocks. -/
structure Scope where
  inLoop : Bool
  inProcedure : Bool
  depth : Nat
  deriving DecidableEq

namespace Scope

/-- Around the top level of a script there is nothing. -/
def top : Scope := ⟨false, false, 0⟩

/-- The scope inside a procedure that is defined here. The loops around its definition are
not around its body. -/
def procedure (scope : Scope) : Scope := ⟨false, true, scope.depth + 1⟩

/-- The scope inside a loop that stands here. -/
def loop (scope : Scope) : Scope := { scope with inLoop := true, depth := scope.depth + 1 }

/-- The scope inside a branch that stands here. -/
def branch (scope : Scope) : Scope := { scope with depth := scope.depth + 1 }

/-- Another block fits in here. -/
def HasRoom (scope : Scope) : Prop := scope.depth < maxBlockDepth

/-- The scope inside the open blocks, of which the innermost is first. -/
def ofBlocks (blocks : List OpenBlock) : Scope :=
  ⟨insideLoop blocks, insideProcedure blocks, blocks.length⟩

/-- The scope inside a block that an opener opens here. -/
def inside (scope : Scope) : Opener → Scope
  | .define _ => scope.procedure
  | .repeated _ | .loop | .whilst _ => scope.loop
  | .branch _ | .otherwise _ _ => scope.branch

/-- A block is inside the blocks around it. -/
theorem of_blocks_cons (block : OpenBlock) (outer : List OpenBlock) :
    ofBlocks (block :: outer) = (ofBlocks outer).inside block.opener := by
  obtain ⟨line, opener, body⟩ := block
  cases opener <;>
    simp [ofBlocks, inside, procedure, loop, branch, insideLoop, insideProcedure,
      Opener.isLoop, Opener.isProcedure]

end Scope

mutual

/-- In the scope every `break` of the statement has a loop of its procedure around it and
every `return` a procedure, and there is room for every block. -/
def Statement.Scoped (scope : Scope) : Statement → Prop
  | .define _ body => scope.HasRoom ∧ NodesScoped scope.procedure body
  | .repeated _ body => scope.HasRoom ∧ NodesScoped scope.loop body
  | .loop body => scope.HasRoom ∧ NodesScoped scope.loop body
  | .whilst _ body => scope.HasRoom ∧ NodesScoped scope.loop body
  | .branch _ yes no =>
      scope.HasRoom ∧ NodesScoped scope.branch yes ∧ NodesScoped scope.branch no
  | .leave => scope.inLoop
  | .answer _ => scope.inProcedure
  | .assign _ _ => True
  | .call _ => True
  termination_by structural statement => statement

/-- The statement of the node is scoped. -/
def Node.Scoped (scope : Scope) : Node → Prop
  | .mk _ statement => statement.Scoped scope
  termination_by structural node => node

/-- The statements of all nodes are scoped. -/
def NodesScoped (scope : Scope) : List Node → Prop
  | [] => True
  | node :: more => node.Scoped scope ∧ NodesScoped scope more
  termination_by structural nodes => nodes

end

instance (scope : Scope) : Decidable scope.HasRoom :=
  inferInstanceAs (Decidable (scope.depth < maxBlockDepth))

mutual

/-- Whether a statement is scoped can be computed. -/
def Statement.decideScoped (scope : Scope) : (s : Statement) → Decidable (s.Scoped scope)
  | .define _ body =>
      have := decideNodesScoped scope.procedure body
      inferInstanceAs (Decidable (_ ∧ _))
  | .repeated _ body | .loop body | .whilst _ body =>
      have := decideNodesScoped scope.loop body
      inferInstanceAs (Decidable (_ ∧ _))
  | .branch _ yes no =>
      have := decideNodesScoped scope.branch yes
      have := decideNodesScoped scope.branch no
      inferInstanceAs (Decidable (_ ∧ _ ∧ _))
  | .leave => inferInstanceAs (Decidable (_ = _))
  | .answer _ => inferInstanceAs (Decidable (_ = _))
  | .assign _ _ => .isTrue trivial
  | .call _ => .isTrue trivial
  termination_by structural statement => statement

/-- Whether a node is scoped can be computed. -/
def Node.decideScoped (scope : Scope) : (node : Node) → Decidable (node.Scoped scope)
  | .mk _ statement => statement.decideScoped scope
  termination_by structural node => node

/-- Whether nodes are scoped can be computed. -/
def decideNodesScoped (scope : Scope) : (nodes : List Node) → Decidable (NodesScoped scope nodes)
  | [] => .isTrue trivial
  | node :: more =>
      have := node.decideScoped scope
      have := decideNodesScoped scope more
      inferInstanceAs (Decidable (_ ∧ _))
  termination_by structural nodes => nodes

end

instance (scope : Scope) (nodes : List Node) : Decidable (NodesScoped scope nodes) :=
  decideNodesScoped scope nodes

@[simp] theorem nodes_scoped_nil (scope : Scope) : NodesScoped scope [] := trivial

@[simp] theorem nodes_scoped_cons {scope : Scope} {line : Nat} {statement : Statement}
    {more : List Node} :
    NodesScoped scope (.mk line statement :: more) ↔
      statement.Scoped scope ∧ NodesScoped scope more := Iff.rfl

@[simp] theorem nodes_scoped_append {scope : Scope} {nodes more : List Node} :
    NodesScoped scope (nodes ++ more) ↔ NodesScoped scope nodes ∧ NodesScoped scope more := by
  induction nodes with
  | nil => simp
  | cons node nodes ih =>
      obtain ⟨line, statement⟩ := node
      simp [ih, and_assoc]

/-- The bodies of a scoped statement are scoped, too. -/
theorem Statement.Scoped.bodies {scope : Scope} {s : Statement} (h : s.Scoped scope)
    {body : List Node} (hbody : body ∈ s.bodies) : ∃ inner, NodesScoped inner body := by
  cases s with
  | branch condition yes no =>
      rcases List.mem_cons.1 hbody with rfl | hbody
      · exact ⟨_, h.2.1⟩
      · obtain rfl := List.mem_singleton.1 hbody
        exact ⟨_, h.2.2⟩
  | define | repeated | loop | whilst =>
      obtain rfl := List.mem_singleton.1 hbody
      exact ⟨_, h.2⟩
  | assign | call | leave | answer => exact absurd hbody List.not_mem_nil

namespace Opener

/-- The nodes that an opener keeps from an earlier block of the same statement. -/
def kept : Opener → List Node
  | .otherwise _ yes => yes
  | _ => []

/-- What is nested in a closed statement: the earlier block, then the last one. -/
theorem nested_close (o : Opener) (body : List Node) :
    (o.close body).nested = preorder o.kept ++ preorder body := by
  cases o <;> simp [Opener.close, Opener.kept, Statement.nested]

/-- A closed statement is scoped when there is room for a block and its blocks are. -/
theorem scoped_close {scope : Scope} {o : Opener} {body : List Node} :
    (o.close body).Scoped scope ↔
      scope.HasRoom ∧ NodesScoped (scope.inside o) o.kept ∧
        NodesScoped (scope.inside o) body := by
  cases o <;> simp [Opener.close, Opener.kept, Statement.Scoped, Scope.inside]

end Opener

end RobotBench
