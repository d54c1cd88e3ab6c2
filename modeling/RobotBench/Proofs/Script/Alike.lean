import Mathlib.Data.List.Forall2
import RobotBench.Proofs.Script.Heading

/-!
# Scripts that are alike

Scripts up to their line numbers. Two scripts are alike when they are the same but for the
numbers of their lines, and numbers in the same place are related; so it is with what has been
read of a script, and with the faults that blame a line. `of_lines_alike` says that reading
respects this: lines that are alike are read as scripts that are alike, or fail with faults
that are.
-/

namespace RobotBench

/-- Two computations both succeed or both fail, and what they come to is related. -/
inductive EndAlike {ε ε' α α' : Type} (Failed : ε → ε' → Prop) (Done : α → α' → Prop) :
    Except ε α → Except ε' α' → Prop
  | ok {a : α} {a' : α'} (h : Done a a') : EndAlike Failed Done (.ok a) (.ok a')
  | error {e : ε} {e' : ε'} (h : Failed e e') : EndAlike Failed Done (.error e) (.error e')

section

variable (Lines : Nat → Nat → Prop)

/-! ## Trees -/

mutual

/-- The statements are the same but for the lines of what is nested in them, and these are
related. -/
inductive Statement.Alike : Statement → Statement → Prop
  | assign (name : String) (value : Expression) :
      Statement.Alike (.assign name value) (.assign name value)
  | call (c : Call) : Statement.Alike (.call c) (.call c)
  | define (name : String) {body body' : List Node} (h : List.Forall₂ Node.Alike body body') :
      Statement.Alike (.define name body) (.define name body')
  | repeated (count : Atom) {body body' : List Node} (h : List.Forall₂ Node.Alike body body') :
      Statement.Alike (.repeated count body) (.repeated count body')
  | loop {body body' : List Node} (h : List.Forall₂ Node.Alike body body') :
      Statement.Alike (.loop body) (.loop body')
  | whilst (condition : Condition) {body body' : List Node}
      (h : List.Forall₂ Node.Alike body body') :
      Statement.Alike (.whilst condition body) (.whilst condition body')
  | branch (condition : Condition) {yes yes' no no' : List Node}
      (hyes : List.Forall₂ Node.Alike yes yes') (hno : List.Forall₂ Node.Alike no no') :
      Statement.Alike (.branch condition yes no) (.branch condition yes' no')
  | leave : Statement.Alike .leave .leave
  | answer (value : Option Atom) : Statement.Alike (.answer value) (.answer value)

/-- The nodes are the same but for their lines, which are related. -/
inductive Node.Alike : Node → Node → Prop
  | mk {line line' : Nat} {s s' : Statement} (hline : Lines line line')
      (hs : Statement.Alike s s') : Node.Alike (.mk line s) (.mk line' s')

end

/-- The nodes are one by one the same but for their lines, which are related. -/
abbrev NodesAlike : List Node → List Node → Prop := List.Forall₂ (Node.Alike Lines)

/-- A statement without blocks is like itself. -/
theorem Statement.alike_of_plain {s : Statement} (h : s.IsPlain) : s.Alike Lines s := by
  cases s with
  | assign name value => exact .assign name value
  | call c => exact .call c
  | leave => exact .leave
  | answer value => exact .answer value
  | _ => exact False.elim h

/-- What opened the blocks is the same but for the lines of a first branch. -/
inductive Opener.Alike : Opener → Opener → Prop
  | first {o : Opener} (h : o.IsFirst) : Opener.Alike o o
  | otherwise (condition : Condition) {yes yes' : List Node} (h : NodesAlike Lines yes yes') :
      Opener.Alike (.otherwise condition yes) (.otherwise condition yes')

/-- The open blocks are the same but for their lines and those of their nodes. -/
structure OpenBlock.Alike (block block' : OpenBlock) : Prop where
  line : Lines block.line block'.line
  opener : block.opener.Alike Lines block'.opener
  body : NodesAlike Lines block.body block'.body

/-- What has been read is the same but for the lines. -/
structure OpenScript.Alike (p p' : OpenScript) : Prop where
  blocks : List.Forall₂ (OpenBlock.Alike Lines) p.blocks p'.blocks
  top : NodesAlike Lines p.top p'.top

/-! ## Faults -/

/-- The line at which the cause says that a block was opened, if it says so. -/
def ParseCause.openedAt? : ParseCause → Option Nat
  | .strayElse _ openedAt => some openedAt
  | _ => none

/-- The causes are the same but for the line of an open block that they quote. -/
inductive ParseCause.Alike : ParseCause → ParseCause → Prop
  | same {cause : ParseCause} (h : cause.openedAt? = none) : ParseCause.Alike cause cause
  | strayElse (keyword : String) {openedAt openedAt' : Nat} (h : Lines openedAt openedAt') :
      ParseCause.Alike (.strayElse keyword openedAt) (.strayElse keyword openedAt')

/-- The faults are the same but for the lines that they blame and quote. -/
structure ParseFault.Alike (f f' : ParseFault) : Prop where
  line : Lines f.line f'.line
  cause : f.cause.Alike Lines f'.cause

/-- The lines have the same words, and related numbers. -/
structure TokenLine.Alike (line line' : TokenLine) : Prop where
  number : Lines line.number line'.number
  head : line.head = line'.head
  rest : line.rest = line'.rest

end

/-! ## What words alone decide -/

/-- If the computation fails, its cause quotes no line. -/
def QuotesNoLine {α : Type} (result : Except ParseCause α) : Prop :=
  ∀ cause, result = .error cause → cause.openedAt? = none

namespace QuotesNoLine

variable {α β : Type}

/-- A value quotes nothing. -/
theorem ok (a : α) : QuotesNoLine (.ok a) := by
  intro cause h
  cases h

/-- A cause that is no open block quotes no line. -/
theorem error {cause : ParseCause} (h : cause.openedAt? = none) :
    QuotesNoLine (.error cause : Except ParseCause α) := by
  intro cause' heq
  cases heq
  exact h

/-- What is made of a value does not matter. -/
theorem map {result : Except ParseCause α} (f : α → β) (h : QuotesNoLine result) :
    QuotesNoLine (result.map f) := by
  cases result with
  | ok a => exact ok (f a)
  | error cause => exact error (h cause rfl)

/-- A wrong number of words is refused without a line. -/
theorem expect_arity (keyword : String) (rest : List String) (expected : Nat) :
    QuotesNoLine (expectArity keyword rest expected) := by
  unfold expectArity
  split
  · exact ok _
  · exact error rfl

/-- The words of a call are refused without a line. -/
theorem read_call (name : String) (words : List String) : QuotesNoLine (readCall name words) := by
  unfold readCall
  split
  · exact ok _
  · exact error rfl

/-- The words of an assignment are refused without a line. -/
theorem read_assign (words : List String) : QuotesNoLine (readAssign words) := by
  unfold readAssign
  split
  · split_ifs
    · exact error rfl
    · exact error rfl
    · split
      · exact ok _
      · exact map _ (read_call _ _)
  · exact error rfl

/-- The words of a condition are refused without a line. -/
theorem read_condition (words : List String) : QuotesNoLine (readCondition words) := by
  unfold readCondition
  split
  · exact ok _
  · split
    · exact ok _
    · exact error rfl
  · split
    · exact ok _
    · exact error rfl
  · exact error rfl

/-- The words of a definition are refused without a line. -/
theorem read_define (words : List String) : QuotesNoLine (readDefine words) := by
  unfold readDefine
  split
  · split
    · exact ok _
    · exact error rfl
  · exact error rfl

/-- The words of a repetition are refused without a line. -/
theorem read_repeated (words : List String) : QuotesNoLine (readRepeated words) := by
  unfold readRepeated
  split
  · exact ok _
  · exact error rfl

/-- The words of an answer are refused without a line. -/
theorem read_answer (words : List String) : QuotesNoLine (readAnswer words) := by
  unfold readAnswer
  split
  · exact ok _
  · exact ok _
  · exact error rfl

/-- A choice quotes no line when neither side does. -/
theorem ite {c : Prop} [Decidable c] {yes no : Except ParseCause α} (hyes : QuotesNoLine yes)
    (hno : QuotesNoLine no) : QuotesNoLine (if c then yes else no) := by
  split
  · exact hyes
  · exact hno

/-- No role is refused because of a line other than its own. -/
theorem role (line : TokenLine) : QuotesNoLine line.role := by
  unfold TokenLine.role
  refine ite (map _ (expect_arity _ _ _)) ?_
  refine ite (map _ (expect_arity _ _ _)) ?_
  refine ite (map _ (read_assign _)) ?_
  refine ite (map _ (read_define _)) ?_
  refine ite (map _ (read_repeated _)) ?_
  refine ite (map _ (expect_arity _ _ _)) ?_
  refine ite (map _ (read_condition _)) ?_
  refine ite (map _ (read_condition _)) ?_
  refine ite (map _ (expect_arity _ _ _)) ?_
  exact ite (ok _) (map _ (read_call _ _))

end QuotesNoLine

/-! ## Blocks -/

section

variable {Lines : Nat → Nat → Prop}

namespace Opener

variable {o o' : Opener}

/-- Openers that are alike have one keyword. -/
theorem Alike.keyword (h : o.Alike Lines o') : o.keyword = o'.keyword := by
  cases h <;> rfl

/-- Of openers that are alike both open a loop or none. -/
theorem Alike.is_loop (h : o.Alike Lines o') : o.isLoop = o'.isLoop := by
  cases h <;> rfl

/-- Of openers that are alike both open a procedure or none. -/
theorem Alike.is_procedure (h : o.Alike Lines o') : o.isProcedure = o'.isProcedure := by
  cases h <;> rfl

/-- Blocks that are alike are closed into statements that are. -/
theorem Alike.close (h : o.Alike Lines o') {body body' : List Node}
    (hbody : NodesAlike Lines body body') :
    (o.close body).Alike Lines (o'.close body') := by
  cases h with
  | first h =>
      cases o with
      | define name => exact .define name hbody
      | repeated count => exact .repeated count hbody
      | loop => exact .loop hbody
      | whilst condition => exact .whilst condition hbody
      | branch condition => exact .branch condition hbody .nil
      | otherwise condition yes => exact False.elim h
  | otherwise condition hyes => exact .branch condition hyes hbody

end Opener

/-- Whether a loop is open is the same in blocks that are alike. -/
theorem inside_loop_alike {blocks blocks' : List OpenBlock}
    (h : List.Forall₂ (OpenBlock.Alike Lines) blocks blocks') :
    insideLoop blocks = insideLoop blocks' := by
  induction h with
  | nil => rfl
  | cons hblock _ ih =>
      rw [insideLoop, insideLoop, hblock.opener.is_loop, hblock.opener.is_procedure, ih]

/-- Whether a procedure is open is the same in blocks that are alike. -/
theorem inside_procedure_alike {blocks blocks' : List OpenBlock}
    (h : List.Forall₂ (OpenBlock.Alike Lines) blocks blocks') :
    insideProcedure blocks = insideProcedure blocks' := by
  induction h with
  | nil => rfl
  | @cons block block' outer outer' hblock _ ih =>
      show (block.opener.isProcedure || insideProcedure outer) =
        (block'.opener.isProcedure || insideProcedure outer')
      rw [hblock.opener.is_procedure, ih]

/-! ## Reading -/

namespace OpenScript

variable {p p' : OpenScript}

/-- Reading starts alike. -/
theorem alike_start : start.Alike Lines start := ⟨.nil, .nil⟩

/-- Nodes that are alike are added to what is alike. -/
theorem Alike.add (h : p.Alike Lines p') {node node' : Node} (hnode : node.Alike Lines node') :
    (p.add node).Alike Lines (p'.add node') := by
  obtain ⟨blocks, top⟩ := p
  obtain ⟨blocks', top'⟩ := p'
  obtain ⟨hblocks, htop⟩ := h
  cases hblocks with
  | nil => exact ⟨.nil, .cons hnode htop⟩
  | cons hblock houter =>
      exact ⟨.cons ⟨hblock.line, hblock.opener, .cons hnode hblock.body⟩ houter, htop⟩

/-- A block is opened alike on related lines. -/
theorem Alike.push (h : p.Alike Lines p') {line line' : Nat} (hline : Lines line line')
    {o : Opener} (ho : o.IsFirst) : (p.push line o).Alike Lines (p'.push line' o) :=
  ⟨.cons ⟨hline, .first ho, .nil⟩ h.blocks, h.top⟩

/-- Blocks that are alike are closed into what is alike. -/
theorem Alike.close (h : p.Alike Lines p') {block block' : OpenBlock}
    (hblock : block.Alike Lines block') {outer outer' : List OpenBlock}
    (houter : List.Forall₂ (OpenBlock.Alike Lines) outer outer') :
    (p.close block outer).Alike Lines (p'.close block' outer') := by
  have houter : OpenScript.Alike Lines { p with blocks := outer } { p' with blocks := outer' } :=
    ⟨houter, h.top⟩
  exact houter.add (.mk hblock.line
    (hblock.opener.close (List.forall₂_reverse_iff.2 hblock.body)))

/-- A role does the same to scripts that are alike. -/
theorem Alike.act (h : p.Alike Lines p') {number number' : Nat} (hnumber : Lines number number')
    {role : LineRole} {words : List String} (hrole : role.SaidBy words) :
    EndAlike (ParseCause.Alike Lines) (OpenScript.Alike Lines)
      (p.act number role) (p'.act number' role) := by
  cases role with
  | simple s =>
      have hs : s.IsPlain := by
        cases s with
        | assign name value => trivial
        | call c => trivial
        | _ => exact False.elim hrole
      exact .ok (h.add (.mk hnumber (s.alike_of_plain Lines hs)))
  | opening o =>
      rw [OpenScript.act, OpenScript.act, h.blocks.length_eq]
      split
      · exact .error (.same rfl)
      · exact .ok (h.push hnumber hrole.1)
  | leave =>
      rw [OpenScript.act, OpenScript.act, inside_loop_alike h.blocks]
      split
      · exact .ok (h.add (.mk hnumber .leave))
      · exact .error (.same rfl)
  | answer rest =>
      rw [OpenScript.act, OpenScript.act, inside_procedure_alike h.blocks]
      split
      · cases hread : readAnswer rest with
        | error cause => exact .error (.same (QuotesNoLine.read_answer rest cause hread))
        | ok s =>
            obtain ⟨⟨value, rfl⟩, -⟩ := read_answer_iff.1 hread
            exact .ok (h.add (.mk hnumber (.answer value)))
      · exact .error (.same rfl)
  | finish =>
      obtain ⟨blocks, top⟩ := p
      obtain ⟨blocks', top'⟩ := p'
      obtain ⟨hblocks, htop⟩ := h
      cases hblocks with
      | nil => exact .error (.same rfl)
      | cons hblock houter =>
          exact .ok (Alike.close ⟨.cons hblock houter, htop⟩ hblock houter)
  | otherwise =>
      obtain ⟨blocks, top⟩ := p
      obtain ⟨blocks', top'⟩ := p'
      obtain ⟨hblocks, htop⟩ := h
      cases hblocks with
      | nil => exact .error (.same rfl)
      | @cons block block' outer outer' hblock houter =>
          obtain ⟨line, opener, body⟩ := block
          obtain ⟨line', opener', body'⟩ := block'
          obtain ⟨hline, hopener, hbody⟩ := hblock
          -- the second branch keeps the condition of the first, so that the openers stay alike;
          -- any other opener refuses it and quotes the line on which the block begins
          cases hopener with
          | first hfirst =>
              cases opener with
              | branch condition =>
                  have hsecond : Opener.Alike Lines (.otherwise condition body.reverse)
                      (.otherwise condition body'.reverse) :=
                    .otherwise condition (List.forall₂_reverse_iff.2 hbody)
                  exact .ok ⟨.cons ⟨hline, hsecond, .nil⟩ houter, htop⟩
              | otherwise condition yes => exact False.elim hfirst
              | _ => exact .error (.strayElse _ hline)
          | otherwise condition hyes => exact .error (.strayElse _ hline)

/-- Lines that are alike are read alike. -/
theorem Alike.step (h : p.Alike Lines p') {line line' : TokenLine}
    (hline : line.Alike Lines line') :
    EndAlike (ParseFault.Alike Lines) (OpenScript.Alike Lines) (p.step line) (p'.step line') := by
  have hrole : line'.role = line.role := by
    rw [TokenLine.role, TokenLine.role, hline.head, hline.rest]
  rw [OpenScript.step, OpenScript.step, hrole]
  cases hsaid : line.role with
  | error cause => exact .error ⟨hline.number, .same (QuotesNoLine.role line cause hsaid)⟩
  | ok role =>
      have hact := h.act hline.number (TokenLine.role_iff.1 hsaid)
      show EndAlike _ _ ((p.act line.number role).mapError _)
        ((p'.act line'.number role).mapError _)
      generalize p.act line.number role = x at hact ⊢
      generalize p'.act line'.number role = x' at hact ⊢
      cases hact with
      | ok hdone => exact .ok hdone
      | error hcause => exact .error ⟨hline.number, hcause⟩

/-- Lines that are alike are read alike, one after another. -/
theorem Alike.steps {lines lines' : List TokenLine}
    (hlines : List.Forall₂ (TokenLine.Alike Lines) lines lines') (h : p.Alike Lines p') :
    EndAlike (ParseFault.Alike Lines) (OpenScript.Alike Lines)
      (p.steps lines) (p'.steps lines') := by
  induction hlines generalizing p p' with
  | nil => exact .ok h
  | @cons line line' more more' hline _ ih =>
      have hstep := h.step hline
      rw [OpenScript.steps, OpenScript.steps]
      generalize p.step line = x at hstep ⊢
      generalize p'.step line' = x' at hstep ⊢
      cases hstep with
      | ok hnext => exact ih hnext
      | error hfault => exact .error hfault

/-- Reading ends alike, with the same block left open or with none. -/
theorem Alike.finish (h : p.Alike Lines p') :
    EndAlike (ParseFault.Alike Lines) (NodesAlike Lines) p.finish p'.finish := by
  obtain ⟨blocks, top⟩ := p
  obtain ⟨blocks', top'⟩ := p'
  obtain ⟨hblocks, htop⟩ := h
  cases hblocks with
  | nil => exact .ok (List.forall₂_reverse_iff.2 htop)
  | @cons block block' outer outer' hblock houter =>
      refine .error ⟨hblock.line, ?_⟩
      show ParseCause.Alike Lines (.missingEnd block.opener.keyword)
        (.missingEnd block'.opener.keyword)
      rw [hblock.opener.keyword]
      exact .same rfl

end OpenScript

/-- Lines that are alike make scripts that are alike, or faults that are. -/
theorem of_lines_alike {lines lines' : List TokenLine}
    (hlines : List.Forall₂ (TokenLine.Alike Lines) lines lines') :
    EndAlike (ParseFault.Alike Lines) (NodesAlike Lines)
      (Script.ofLines lines) (Script.ofLines lines') := by
  have hsteps := OpenScript.Alike.steps hlines OpenScript.alike_start
  rw [Script.ofLines, Script.ofLines]
  generalize OpenScript.start.steps lines = x at hsteps ⊢
  generalize OpenScript.start.steps lines' = x' at hsteps ⊢
  cases hsteps with
  | ok hdone => exact hdone.finish
  | error hfault => exact .error hfault

end

end RobotBench
