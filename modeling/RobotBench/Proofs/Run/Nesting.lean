import RobotBench.Proofs.Run.Simulation

/-!
# How deep blocks are nested

The nesting of nodes is the number of blocks that are nested in them at most. In an accepted
script it is bounded, by `nesting_le_of_scoped`, and the bodies of the procedures that nodes
define are nested less than the nodes, by `defines_only_of_nesting`. In any namespace there is
a bound on the nesting of all bodies, by `Namespace.exists_nesting`.
-/

namespace RobotBench

mutual

/-- How many blocks are nested in a statement at most, its own one included. -/
def Statement.nesting : Statement → Nat
  | .define _ body => nodesNesting body + 1
  | .repeated _ body => nodesNesting body + 1
  | .loop body => nodesNesting body + 1
  | .whilst _ body => nodesNesting body + 1
  | .branch _ yes no => max (nodesNesting yes) (nodesNesting no) + 1
  | .assign _ _ => 0
  | .call _ => 0
  | .leave => 0
  | .answer _ => 0
  termination_by structural statement => statement

/-- How many blocks are nested in a node at most. -/
def Node.nesting : Node → Nat
  | .mk _ statement => statement.nesting
  termination_by structural node => node

/-- How many blocks are nested in nodes at most. -/
def nodesNesting : List Node → Nat
  | [] => 0
  | node :: more => max node.nesting (nodesNesting more)
  termination_by structural nodes => nodes

end

@[simp] theorem nodes_nesting_nil : nodesNesting [] = 0 := rfl

@[simp] theorem nodes_nesting_cons (line : Nat) (s : Statement) (more : List Node) :
    nodesNesting (.mk line s :: more) = max s.nesting (nodesNesting more) := rfl

/-- At most a number of blocks is nested in the nodes. -/
def Shallow (bound : Nat) (nodes : List Node) : Prop := nodesNesting nodes ≤ bound

/-! ## Accepted scripts -/

mutual

/-- The blocks around a scoped statement and those in it are not too many together. -/
theorem Statement.nesting_le_of_scoped (s : Statement) {scope : Scope} (h : s.Scoped scope)
    (hdepth : scope.depth ≤ maxBlockDepth) : scope.depth + s.nesting ≤ maxBlockDepth := by
  cases s with
  | define name body =>
      have hbody := nesting_le_of_scoped body h.2 h.1
      simp only [Scope.procedure, Statement.nesting] at hbody ⊢
      omega
  | repeated count body =>
      have hbody := nesting_le_of_scoped body h.2 h.1
      simp only [Scope.loop, Statement.nesting] at hbody ⊢
      omega
  | loop body =>
      have hbody := nesting_le_of_scoped body h.2 h.1
      simp only [Scope.loop, Statement.nesting] at hbody ⊢
      omega
  | whilst condition body =>
      have hbody := nesting_le_of_scoped body h.2 h.1
      simp only [Scope.loop, Statement.nesting] at hbody ⊢
      omega
  | branch condition yes no =>
      have hyes := nesting_le_of_scoped yes h.2.1 h.1
      have hno := nesting_le_of_scoped no h.2.2 h.1
      simp only [Scope.branch, Statement.nesting] at hyes hno ⊢
      omega
  | assign name value => exact hdepth
  | call c => exact hdepth
  | leave => exact hdepth
  | answer value => exact hdepth
  termination_by structural s

/-- The blocks around scoped nodes and those in them are not too many together. -/
theorem nesting_le_of_scoped (nodes : List Node) {scope : Scope} (h : NodesScoped scope nodes)
    (hdepth : scope.depth ≤ maxBlockDepth) :
    scope.depth + nodesNesting nodes ≤ maxBlockDepth := by
  cases nodes with
  | nil => exact hdepth
  | cons node more =>
      obtain ⟨line, s⟩ := node
      have hfirst := s.nesting_le_of_scoped h.1 hdepth
      have hmore := nesting_le_of_scoped more h.2 hdepth
      rw [nodes_nesting_cons]
      omega
  termination_by structural nodes

end

/-! ## Bodies of procedures -/

/-- The bodies of a statement are nested less than the statement. -/
theorem Statement.bodies_nesting_lt (s : Statement) {body : List Node} (h : body ∈ s.bodies) :
    nodesNesting body < s.nesting := by
  cases s with
  | branch condition yes no =>
      rcases List.mem_cons.1 h with rfl | h
      · exact Nat.lt_succ_of_le (Nat.le_max_left _ _)
      · obtain rfl := List.mem_singleton.1 h
        exact Nat.lt_succ_of_le (Nat.le_max_right _ _)
  | define | repeated | loop | whilst =>
      obtain rfl := List.mem_singleton.1 h
      exact Nat.lt_succ_self _
  | assign | call | leave | answer => exact absurd h List.not_mem_nil

/-- What nodes define is nested less than the nodes. -/
theorem defines_only_of_nesting (nodes : List Node) {bound : Nat}
    (h : nodesNesting nodes ≤ bound + 1) : DefinesOnly (Shallow bound) nodes := by
  have hdown : Descends (nodesNesting · ≤ bound + 1) (Statement.Defines (Shallow bound)) := by
    intro line s more hnodes
    obtain ⟨hs, hmore⟩ := Nat.max_le.1 hnodes
    have hbodies : ∀ body ∈ s.bodies, nodesNesting body ≤ bound := fun body hbody =>
      Nat.le_of_lt_succ (Nat.lt_of_lt_of_le (s.bodies_nesting_lt hbody) hs)
    refine ⟨?_, fun body hbody => Nat.le_succ_of_le (hbodies body hbody), hmore⟩
    rintro name body rfl
    exact hbodies body List.mem_cons_self
  exact hdown.preorder nodes h

/-- The nesting of the bodies in a namespace has a bound, which is as great as is asked for. -/
theorem Namespace.exists_nesting (names : Namespace) (least : Nat) :
    ∃ bound, least ≤ bound ∧ names.AllBodies (Shallow bound) := by
  let nestings := names.procedures.entries.map fun entry => nodesNesting entry.2
  refine ⟨(least :: nestings).max?.getD 0, List.le_max?_getD_of_mem List.mem_cons_self,
    fun name body hfind => List.le_max?_getD_of_mem (List.mem_cons_of_mem _ ?_)⟩
  exact List.mem_map.2 ⟨(name, body), Table.mem_of_lookup hfind, rfl⟩

end RobotBench
