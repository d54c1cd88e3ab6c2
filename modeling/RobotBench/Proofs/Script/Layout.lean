import RobotBench.Proofs.Script.Heading
import RobotBench.Proofs.Script.Scope

/-!
# Scripts and their lines

`Layout nodes lines` says that the lines are the nodes written out: the nodes in order,
each line that of its own statement, every block closed by a line `end` and the second
branch of an `if` set off by a line `else`. Nothing of a line is left over, and the number
of a node is the number of its line.
-/

namespace RobotBench

/-- The lines are the nodes, written one statement a line. An `else` may also stand before
a second branch that is empty. -/
inductive Layout : List Node → List TokenLine → Prop
  | nil : Layout [] []
  | plain {s : Statement} {line : TokenLine} {nodes : List Node} {lines : List TokenLine}
      (hs : s.IsPlain) (hheading : s.Heading line.tokens) (hmore : Layout nodes lines) :
      Layout (.mk line.number s :: nodes) (line :: lines)
  | block {o : Opener} {body : List Node} {line last : TokenLine} {inner : List TokenLine}
      {nodes : List Node} {lines : List TokenLine}
      (ho : o.IsFirst) (hheading : (o.close body).Heading line.tokens)
      (hbody : Layout body inner) (hlast : last.tokens = ["end"])
      (hmore : Layout nodes lines) :
      Layout (.mk line.number (o.close body) :: nodes) (line :: (inner ++ last :: lines))
  | choice {condition : Condition} {yes no : List Node} {line middle last : TokenLine}
      {first second : List TokenLine} {nodes : List Node} {lines : List TokenLine}
      (hheading : (Statement.branch condition yes no).Heading line.tokens)
      (hyes : Layout yes first) (hmiddle : middle.tokens = ["else"])
      (hno : Layout no second) (hlast : last.tokens = ["end"])
      (hmore : Layout nodes lines) :
      Layout (.mk line.number (.branch condition yes no) :: nodes)
        (line :: (first ++ middle :: (second ++ last :: lines)))

namespace Layout

variable {nodes : List Node} {lines : List TokenLine}

/-- Nodes written after each other are the two lists of lines after each other. -/
theorem append {more : List Node} {rest : List TokenLine} (h : Layout nodes lines)
    (hmore : Layout more rest) : Layout (nodes ++ more) (lines ++ rest) := by
  induction h with
  | nil => exact hmore
  | plain hs hheading _ ih => exact .plain hs hheading ih
  | block ho hheading hbody hlast _ _ ih =>
      simpa using .block ho hheading hbody hlast ih
  | choice hheading hyes hmiddle hno hlast _ _ _ ih =>
      simpa using .choice hheading hyes hmiddle hno hlast ih

/-- A statement without blocks is nested around nothing. -/
theorem nested_plain {s : Statement} (h : s.IsPlain) : s.nested = [] := by
  cases s <;> first | rfl | exact False.elim h

theorem kept_first {o : Opener} (h : o.IsFirst) : o.kept = [] := by
  cases o <;> first | rfl | exact False.elim h

/-- Every node, however deeply nested, stands on a line of its own words and number. -/
theorem heading (h : Layout nodes lines) :
    ∀ node ∈ preorder nodes, ∃ line ∈ lines,
      node.line = line.number ∧ node.statement.Heading line.tokens := by
  induction h with
  | nil => simp
  | plain hs hheading _ ih =>
      simp only [preorder_cons, Node.statement, nested_plain hs, List.nil_append]
      intro node hnode
      rcases List.mem_cons.1 hnode with rfl | hnode
      · exact ⟨_, List.mem_cons_self, rfl, hheading⟩
      · obtain ⟨line, hline, h⟩ := ih node hnode
        exact ⟨line, List.mem_cons_of_mem _ hline, h⟩
  | block ho hheading _ _ _ ihbody ihmore =>
      simp only [preorder_cons, Node.statement, Opener.nested_close, kept_first ho,
        preorder_nil, List.nil_append]
      intro node hnode
      rcases List.mem_cons.1 hnode with rfl | hnode
      · exact ⟨_, List.mem_cons_self, rfl, hheading⟩
      · rcases List.mem_append.1 hnode with hnode | hnode
        · obtain ⟨line, hline, h⟩ := ihbody node hnode
          exact ⟨line, by simp [hline], h⟩
        · obtain ⟨line, hline, h⟩ := ihmore node hnode
          exact ⟨line, by simp [hline], h⟩
  | choice hheading _ _ _ _ _ ihyes ihno ihmore =>
      simp only [preorder_cons, Node.statement, Statement.nested, List.append_assoc]
      intro node hnode
      rcases List.mem_cons.1 hnode with rfl | hnode
      · exact ⟨_, List.mem_cons_self, rfl, hheading⟩
      · rcases List.mem_append.1 hnode with hnode | hnode
        · obtain ⟨line, hline, h⟩ := ihyes node hnode
          exact ⟨line, by simp [hline], h⟩
        · rcases List.mem_append.1 hnode with hnode | hnode
          · obtain ⟨line, hline, h⟩ := ihno node hnode
            exact ⟨line, by simp [hline], h⟩
          · obtain ⟨line, hline, h⟩ := ihmore node hnode
            exact ⟨line, by simp [hline], h⟩

/-- The numbers of the nodes are numbers of the lines, in the same order. -/
theorem numbers_sublist (h : Layout nodes lines) :
    ((preorder nodes).map Node.line).Sublist (lines.map TokenLine.number) := by
  induction h with
  | nil => exact .slnil
  | plain hs _ _ ih =>
      simp only [preorder_cons, Node.statement, nested_plain hs, List.nil_append, List.map_cons,
        Node.line]
      exact ih.cons_cons _
  | block ho _ _ _ _ ihbody ihmore =>
      simp only [preorder_cons, Node.statement, Opener.nested_close, kept_first ho,
        preorder_nil, List.nil_append, List.map_cons, List.map_append, Node.line]
      exact (ihbody.append (ihmore.cons _)).cons_cons _
  | choice _ _ _ _ _ _ ihyes ihno ihmore =>
      simp only [preorder_cons, Node.statement, Statement.nested, List.append_assoc,
        List.map_cons, List.map_append, Node.line]
      exact (ihyes.append ((ihno.append (ihmore.cons _)).cons _)).cons_cons _

end Layout

end RobotBench
