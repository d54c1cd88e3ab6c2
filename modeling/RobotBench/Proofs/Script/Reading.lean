import RobotBench.Proofs.Script.Layout

/-!
# Reading line by line

`OpenScript.Reads` lists what reading one line can do: a statement joins, a block is
opened, closed, or set off by `else`. `OpenScript.step_iff` says that reading a line does
exactly this. From it two facts about whole runs of lines follow by induction:
`OpenScript.Covers.steps`, that what has been read is laid out on the lines so far and
everything in it stands in its scope, and `OpenScript.steps_layout`, that lines on which
scoped nodes are laid out are read as these nodes.
-/

namespace RobotBench

namespace OpenScript

/-- What reading a line makes of the script so far. -/
inductive Reads (p : OpenScript) (line : TokenLine) : OpenScript → Prop
  | plain {s : Statement} (hs : s.IsPlain) (hheading : s.Heading line.tokens)
      (hscope : s.Scoped (.ofBlocks p.blocks)) : Reads p line (p.add (.mk line.number s))
  | opening {o : Opener} (ho : o.IsFirst) (hheading : (o.close []).Heading line.tokens)
      (hroom : (Scope.ofBlocks p.blocks).HasRoom) : Reads p line (p.push line.number o)
  | finish {block : OpenBlock} {outer : List OpenBlock} (hwords : line.tokens = ["end"])
      (hblocks : p.blocks = block :: outer) : Reads p line (p.close block outer)
  | otherwise {block : OpenBlock} {outer : List OpenBlock} {condition : Condition}
      (hwords : line.tokens = ["else"]) (hblocks : p.blocks = block :: outer)
      (hopener : block.opener = .branch condition) :
      Reads p line { p with
        blocks := ⟨block.line, .otherwise condition block.body.reverse, []⟩ :: outer }

variable {p q : OpenScript} {line : TokenLine}

/-- A line is read when it has a role and the role can be acted on. -/
theorem step_ok_iff :
    p.step line = .ok q ↔ ∃ role, line.role = .ok role ∧ p.act line.number role = .ok q := by
  unfold step
  cases line.role with
  | error cause => simp
  | ok role =>
      cases h : p.act line.number role with
      | error cause => simp [h, Except.mapError]
      | ok q' => simp [h, Except.mapError]

/-- What a line can do once its words say a role. -/
theorem reads_of_act {role : LineRole} (hrole : role.SaidBy line.tokens)
    (h : p.act line.number role = .ok q) : p.Reads line q := by
  cases role with
  | simple s =>
      cases h
      cases s with
      | assign name value => exact .plain trivial hrole trivial
      | call c => exact .plain trivial hrole trivial
      | _ => exact False.elim hrole
  | opening o =>
      simp only [act] at h
      split_ifs at h with hroom
      cases h
      exact .opening hrole.1 hrole.2 (Nat.lt_of_not_le hroom)
  | leave =>
      simp only [act] at h
      split_ifs at h with hloop
      cases h
      exact .plain trivial hrole hloop
  | answer words =>
      simp only [act] at h
      split_ifs at h with hprocedure
      obtain ⟨s, hs, rfl⟩ := map_ok_iff.1 h
      obtain ⟨⟨value, rfl⟩, hheading⟩ := read_answer_iff.1 hs
      have hwords : line.tokens = "return" :: words := hrole
      exact .plain trivial (hwords ▸ hheading) hprocedure
  | finish =>
      simp only [act] at h
      split at h
      · cases h
      · rename_i block outer hblocks
        cases h
        exact .finish hrole hblocks
  | otherwise =>
      simp only [act] at h
      split at h
      · cases h
      · rename_i block outer hblocks
        split at h
        · rename_i condition hopener
          cases h
          exact .otherwise hrole hblocks hopener
        · cases h

/-- Reading a line does exactly what `Reads` lists. -/
theorem step_iff : p.step line = .ok q ↔ p.Reads line q := by
  rw [step_ok_iff]
  constructor
  · rintro ⟨role, hrole, h⟩
    exact reads_of_act (TokenLine.role_iff.1 hrole) h
  · intro h
    cases h with
    | @plain s hs hheading hscope =>
        cases s with
        | assign name value =>
            exact ⟨.simple (.assign name value), TokenLine.role_iff.2 hheading, rfl⟩
        | call c => exact ⟨.simple (.call c), TokenLine.role_iff.2 hheading, rfl⟩
        | leave =>
            have hloop : insideLoop p.blocks = true := hscope
            exact ⟨.leave, TokenLine.role_iff.2 hheading, by simp [act, hloop]⟩
        | answer value =>
            have hprocedure : insideProcedure p.blocks = true := hscope
            obtain ⟨words, hwords⟩ : ∃ words, line.tokens = "return" :: words := by
              cases value with
              | none => exact ⟨[], hheading⟩
              | some operand =>
                  obtain ⟨word, hword, -⟩ := hheading
                  exact ⟨[word], hword⟩
            have hread : readAnswer words = .ok (.answer value) :=
              read_answer_iff.2 ⟨⟨value, rfl⟩, hwords ▸ hheading⟩
            exact ⟨.answer words, TokenLine.role_iff.2 hwords,
              by simp [act, hprocedure, hread, Except.map]⟩
        | _ => exact False.elim hs
    | opening ho hheading hroom =>
        have hlength : p.blocks.length < maxBlockDepth := hroom
        exact ⟨.opening _, TokenLine.role_iff.2 ⟨ho, hheading⟩, by simp [act, hlength]⟩
    | finish hwords hblocks =>
        exact ⟨.finish, TokenLine.role_iff.2 hwords, by simp [act, hblocks]⟩
    | otherwise hwords hblocks hopener =>
        exact ⟨.otherwise, TokenLine.role_iff.2 hwords, by simp [act, hblocks, hopener]⟩

/-! ## What has been read -/

end OpenScript

/-- The lines that an open block has taken up before its body. -/
def OpenBlock.OpenedBy (block : OpenBlock) (lines : List TokenLine) : Prop :=
  match block.opener with
  | .otherwise condition yes => ∃ line first middle,
      lines = line :: (first ++ [middle]) ∧ line.number = block.line ∧
        (Statement.branch condition yes []).Heading line.tokens ∧ Layout yes first ∧
        middle.tokens = ["else"]
  | opener => ∃ line, lines = [line] ∧ line.number = block.line ∧
      (opener.close []).Heading line.tokens

/-- The lines are the top level so far and then, from the outermost one inwards, the open
blocks with their bodies so far. -/
inductive Unfinished (top : List Node) : List OpenBlock → List TokenLine → Prop
  | top {lines : List TokenLine} (h : Layout top.reverse lines) : Unfinished top [] lines
  | block {block : OpenBlock} {outer : List OpenBlock} {before opening inner : List TokenLine}
      (houter : Unfinished top outer before) (hopening : block.OpenedBy opening)
      (hbody : Layout block.body.reverse inner) :
      Unfinished top (block :: outer) (before ++ (opening ++ inner))

/-- Everything in the open blocks stands in the scope of its block. -/
def BlocksScoped : List OpenBlock → Prop
  | [] => True
  | block :: outer => (Scope.ofBlocks outer).HasRoom ∧
      NodesScoped (.ofBlocks (block :: outer)) block.opener.kept ∧
      NodesScoped (.ofBlocks (block :: outer)) block.body.reverse ∧ BlocksScoped outer

namespace OpenScript

/-- The lines are what has been read so far, and all of it is scoped. -/
structure Covers (p : OpenScript) (lines : List TokenLine) : Prop where
  unfinished : Unfinished p.top p.blocks lines
  top_scoped : NodesScoped .top p.top.reverse
  blocks_scoped : BlocksScoped p.blocks

variable {p q : OpenScript} {line : TokenLine} {lines : List TokenLine}

theorem covers_start : start.Covers [] := ⟨.top .nil, trivial, trivial⟩

/-- A node joins what has been read, with its lines. -/
theorem Covers.add {node : Node} {more : List TokenLine} (h : p.Covers lines)
    (hnode : Layout [node] more) (hscope : node.Scoped (.ofBlocks p.blocks)) :
    (p.add node).Covers (lines ++ more) := by
  obtain ⟨blocks, top⟩ := p
  obtain ⟨hunfinished, htop, hblocks⟩ := h
  have hsingle : ∀ {scope : Scope}, node.Scoped scope → NodesScoped scope [node] :=
    fun h => ⟨h, trivial⟩
  cases hunfinished with
  | top hlayout =>
      refine ⟨.top ?_, ?_, trivial⟩
      · show Layout (node :: top).reverse (lines ++ more)
        rw [List.reverse_cons]
        exact hlayout.append hnode
      · show NodesScoped .top (node :: top).reverse
        rw [List.reverse_cons]
        exact nodes_scoped_append.2 ⟨htop, hsingle hscope⟩
  | @block block outer before opening inner houter hopening hbody =>
      obtain ⟨hroom, hkept, hinner, houters⟩ := hblocks
      refine ⟨?_, htop, hroom, ?_, ?_, houters⟩
      · rw [List.append_assoc, List.append_assoc]
        refine .block houter hopening ?_
        simpa using hbody.append hnode
      · rw [Scope.of_blocks_cons] at hkept ⊢
        exact hkept
      · rw [Scope.of_blocks_cons] at hinner hscope ⊢
        rw [List.reverse_cons]
        exact nodes_scoped_append.2 ⟨hinner, hsingle hscope⟩

/-- The lines of a block from its first line to its `end` are its statement written out. -/
theorem layout_close {block : OpenBlock} {opening inner : List TokenLine} {last : TokenLine}
    (hopening : block.OpenedBy opening) (hbody : Layout block.body.reverse inner)
    (hlast : last.tokens = ["end"]) :
    Layout [.mk block.line (block.opener.close block.body.reverse)]
      (opening ++ inner ++ [last]) := by
  obtain ⟨number, opener, body⟩ := block
  cases opener with
  | otherwise condition yes =>
      obtain ⟨line, first, middle, rfl, rfl, hheading, hyes, hmiddle⟩ := hopening
      have hheading : (Statement.branch condition yes body.reverse).Heading line.tokens :=
        hheading
      simpa [Opener.close] using Layout.choice hheading hyes hmiddle hbody hlast .nil
  | _ =>
      obtain ⟨line, rfl, rfl, hheading⟩ := hopening
      exact Layout.block trivial ((Opener.heading_close _ _).1 hheading) hbody hlast .nil

/-- Reading a line adds it to the lines that are covered. -/
theorem Reads.covers (h : p.Reads line q) (hp : p.Covers lines) :
    q.Covers (lines ++ [line]) := by
  cases h with
  | plain hs hheading hscope => exact hp.add (.plain hs hheading .nil) hscope
  | @opening o ho hheading hroom =>
      obtain ⟨hunfinished, htop, hblocks⟩ := hp
      have hopening : (OpenBlock.mk line.number o []).OpenedBy [line] := by
        cases o <;> first | exact ⟨line, rfl, rfl, hheading⟩ | exact False.elim ho
      refine ⟨?_, htop, hroom, ?_, trivial, hblocks⟩
      · rw [← List.append_nil [line]]
        exact .block hunfinished hopening .nil
      · rw [Layout.kept_first ho]
        exact trivial
  | @finish block outer hwords hblocks =>
      obtain ⟨hunfinished, htop, hscoped⟩ := hp
      rw [hblocks] at hunfinished hscoped
      obtain ⟨hroom, hkept, hinner, houters⟩ := hscoped
      cases hunfinished with
      | block houter hopening hbody =>
          -- without the block the rest is covered as before; the closed statement then
          -- joins it like any other node
          have hp' : Covers { p with blocks := outer } _ := ⟨houter, htop, houters⟩
          rw [List.append_assoc]
          refine hp'.add (layout_close hopening hbody hwords) ?_
          rw [Scope.of_blocks_cons] at hkept hinner
          exact Opener.scoped_close.2 ⟨hroom, hkept, hinner⟩
  | @otherwise block outer condition hwords hblocks hopener =>
      obtain ⟨hunfinished, htop, hscoped⟩ := hp
      rw [hblocks] at hunfinished hscoped
      obtain ⟨hroom, hkept, hinner, houters⟩ := hscoped
      obtain ⟨number, opener, body⟩ := block
      cases hopener
      cases hunfinished with
      | @block _ _ before opening inner houter hopening hbody =>
          obtain ⟨first, rfl, rfl, hheading⟩ := hopening
          have hopening' : (OpenBlock.mk first.number (.otherwise condition body.reverse)
              []).OpenedBy (first :: (inner ++ [line])) :=
            ⟨first, inner, line, rfl, rfl, hheading, hbody, hwords⟩
          refine ⟨?_, htop, hroom, ?_, trivial, houters⟩
          · simpa using Unfinished.block houter hopening' .nil
          · rw [Scope.of_blocks_cons] at hinner ⊢
            exact hinner

/-- Reading lines adds them to the lines that are covered. -/
theorem Covers.steps {more : List TokenLine} (hp : p.Covers lines)
    (h : p.steps more = .ok q) : q.Covers (lines ++ more) := by
  induction more generalizing p lines with
  | nil =>
      cases h
      simpa using hp
  | cons line more ih =>
      simp only [OpenScript.steps] at h
      split at h
      · cases h
      · rename_i r hstep
        have hr := (step_iff.1 hstep).covers hp
        simpa using ih hr h

/-- A script that is read off lines is laid out on all of them, and scoped. -/
theorem of_lines_sound {script : Script} (h : Script.ofLines lines = .ok script) :
    Layout script lines ∧ NodesScoped .top script := by
  unfold Script.ofLines at h
  split at h
  · cases h
  · rename_i p hsteps
    obtain ⟨blocks, top⟩ := p
    obtain ⟨hunfinished, htop, -⟩ := covers_start.steps hsteps
    unfold finish at h
    split at h
    · rename_i hblocks
      cases h
      cases hblocks
      cases hunfinished with
      | top hlayout => exact ⟨hlayout, htop⟩
    · cases h

/-! ## What will be read -/

/-- Nodes join the innermost open block one after the other. -/
def addAll (nodes : List Node) (p : OpenScript) : OpenScript :=
  nodes.foldl (fun p node => p.add node) p

theorem add_all_cons (node : Node) (nodes : List Node) (p : OpenScript) :
    p.addAll (node :: nodes) = (p.add node).addAll nodes := rfl

/-- On the top level the nodes join the top level. -/
theorem add_all_top (nodes top : List Node) :
    OpenScript.addAll nodes ⟨[], top⟩ = ⟨[], nodes.reverse ++ top⟩ := by
  induction nodes generalizing top with
  | nil => rfl
  | cons node nodes ih =>
      rw [add_all_cons]
      show OpenScript.addAll nodes ⟨[], node :: top⟩ = _
      rw [ih]
      simp

/-- Inside a block the nodes join its body. -/
theorem add_all_block (nodes body : List Node) (number : Nat) (opener : Opener)
    (outer : List OpenBlock) (top : List Node) :
    OpenScript.addAll nodes ⟨⟨number, opener, body⟩ :: outer, top⟩ =
      ⟨⟨number, opener, nodes.reverse ++ body⟩ :: outer, top⟩ := by
  induction nodes generalizing body with
  | nil => rfl
  | cons node nodes ih =>
      rw [add_all_cons]
      show OpenScript.addAll nodes ⟨⟨number, opener, node :: body⟩ :: outer, top⟩ = _
      rw [ih]
      simp

/-- A node that joins does not change the scope. -/
theorem of_blocks_add (node : Node) (p : OpenScript) :
    Scope.ofBlocks (p.add node).blocks = Scope.ofBlocks p.blocks := by
  obtain ⟨blocks, top⟩ := p
  cases blocks with
  | nil => rfl
  | cons block outer =>
      rw [Scope.of_blocks_cons]
      exact Scope.of_blocks_cons _ _

/-- A line is read before the lines after it. -/
theorem steps_cons {more : List TokenLine} (h : p.Reads line q) :
    p.steps (line :: more) = q.steps more := by
  simp only [steps, step_iff.2 h]

/-- Lines are read before the lines after them. -/
theorem steps_append {more : List TokenLine} (h : p.steps lines = .ok q) :
    p.steps (lines ++ more) = q.steps more := by
  induction lines generalizing p with
  | nil =>
      cases h
      rfl
  | cons line rest ih =>
      simp only [steps, List.cons_append] at h ⊢
      split at h
      · cases h
      · exact ih h

/-- The body of a block and its `end` are read as the statement of the block. -/
theorem steps_block {number : Nat} {opener : Opener} {body : List Node}
    {inner more : List TokenLine} {last : TokenLine} (hlast : last.tokens = ["end"])
    (hbody : (p.push number opener).steps inner = .ok ((p.push number opener).addAll body)) :
    (p.push number opener).steps (inner ++ last :: more) =
      (p.add (.mk number (opener.close body))).steps more := by
  obtain ⟨blocks, top⟩ := p
  rw [steps_append hbody]
  show (OpenScript.addAll body ⟨⟨number, opener, []⟩ :: blocks, top⟩).steps _ = _
  rw [add_all_block, List.append_nil, steps_cons (.finish hlast rfl)]
  simp only [close, List.reverse_reverse]

/-- The first branch of an `if` and its `else` are read as an open second branch. -/
theorem steps_otherwise {number : Nat} {condition : Condition} {yes : List Node}
    {first more : List TokenLine} {middle : TokenLine} (hmiddle : middle.tokens = ["else"])
    (hyes : (p.push number (.branch condition)).steps first =
      .ok ((p.push number (.branch condition)).addAll yes)) :
    (p.push number (.branch condition)).steps (first ++ middle :: more) =
      (p.push number (.otherwise condition yes)).steps more := by
  obtain ⟨blocks, top⟩ := p
  rw [steps_append hyes]
  show (OpenScript.addAll yes ⟨⟨number, .branch condition, []⟩ :: blocks, top⟩).steps _ = _
  rw [add_all_block, List.append_nil, steps_cons (.otherwise hmiddle rfl rfl),
    List.reverse_reverse]
  rfl

/-- The scope inside a block that a line opens. -/
theorem of_blocks_push (number : Nat) (opener : Opener) (p : OpenScript) :
    Scope.ofBlocks (p.push number opener).blocks = (Scope.ofBlocks p.blocks).inside opener :=
  Scope.of_blocks_cons ⟨number, opener, []⟩ p.blocks

/-- Lines on which scoped nodes are laid out are read as these nodes. -/
theorem steps_layout {nodes : List Node} (h : Layout nodes lines)
    (hscope : NodesScoped (.ofBlocks p.blocks) nodes) :
    p.steps lines = .ok (p.addAll nodes) := by
  -- by induction on the layout; `p` varies, since a body is read inside the block that the
  -- line before it opens
  induction h generalizing p with
  | nil => rfl
  | plain hs hheading _ ih =>
      obtain ⟨hnode, hmore⟩ := hscope
      rw [steps_cons (.plain hs hheading hnode), add_all_cons]
      exact ih (of_blocks_add _ p ▸ hmore)
  | @block o body line last inner nodes lines ho hheading _ hlast _ ihbody ihmore =>
      obtain ⟨hnode, hmore⟩ := hscope
      obtain ⟨hroom, -, hinner⟩ := Opener.scoped_close.1 hnode
      have hopen := (Opener.heading_close body []).1 hheading
      have hread := ihbody (p := p.push line.number o) (of_blocks_push _ o p ▸ hinner)
      rw [steps_cons (.opening ho hopen hroom), steps_block hlast hread, add_all_cons]
      exact ihmore (of_blocks_add _ p ▸ hmore)
  | @choice condition yes no line middle last first second nodes lines hheading _ hmiddle _
      hlast _ ihyes ihno ihmore =>
      obtain ⟨hnode, hmore⟩ := hscope
      obtain ⟨hroom, hyes, hno⟩ := hnode
      have hopen : p.Reads line (p.push line.number (.branch condition)) :=
        .opening trivial hheading hroom
      have hfirst := ihyes (p := p.push line.number (.branch condition))
        (of_blocks_push _ (.branch condition) p ▸ hyes)
      have hsecond := ihno (p := p.push line.number (.otherwise condition yes))
        (of_blocks_push _ (.otherwise condition yes) p ▸ hno)
      rw [steps_cons hopen, steps_otherwise hmiddle hfirst, steps_block hlast hsecond,
        add_all_cons]
      exact ihmore (of_blocks_add _ p ▸ hmore)

/-- Lines on which a scoped script is laid out are read as this script. -/
theorem of_lines_complete {script : Script} (h : Layout script lines)
    (hscope : NodesScoped .top script) : Script.ofLines lines = .ok script := by
  have hsteps : start.steps lines = .ok (start.addAll script) := steps_layout h hscope
  unfold Script.ofLines
  rw [hsteps]
  show (OpenScript.addAll script ⟨[], []⟩).finish = _
  rw [add_all_top]
  simp [finish]

end OpenScript

end RobotBench
