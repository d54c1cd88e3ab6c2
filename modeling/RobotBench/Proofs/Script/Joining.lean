import RobotBench.Proofs.Script.Reading
import RobotBench.Proofs.Text.Lines

/-!
# Joined texts

After a text that is a script, no block is open: reading goes on as at the beginning, only
below the nodes that were read before. `OpenScript.steps_below` says that these nodes change
nothing in what is read, and `Script.of_text_append` that the second of two joined texts is
read as on its own, with its lines counted from where the first ends.
-/

namespace RobotBench

/-- The lines after readable ones are read as on their own, with their numbers. -/
theorem token_lines_append {number : Nat} {ls : List (List Char)} {lines : List TokenLine}
    (h : tokenLines number ls = .ok lines) (more : List (List Char)) :
    tokenLines number (ls ++ more) =
      (tokenLines (number + ls.length) more).map (lines ++ ·) := by
  induction ls generalizing number lines with
  | nil =>
      cases h
      rcases hmore : tokenLines number more with bad | rest
      · exact hmore
      · exact hmore
  | cons cs rest ih =>
      have hnumber : number + (cs :: rest).length = number + 1 + rest.length := by
        rw [List.length_cons]
        omega
      rw [List.cons_append, tokenLines, hnumber]
      rw [tokenLines] at h
      cases hwords : lineWords? cs with
      | none =>
          rw [hwords] at h
          cases h
      | some words =>
          rw [hwords] at h
          obtain ⟨lines', hlines', rfl⟩ := map_ok_iff.1 h
          simp only [ih hlines']
          rcases tokenLines (number + 1 + rest.length) more with bad | others
          · rfl
          · cases words <;> rfl

namespace OpenScript

/-- What has been read, below nodes of the top level that were read before it. -/
def below (nodes : List Node) (p : OpenScript) : OpenScript := ⟨p.blocks, p.top ++ nodes⟩

variable (nodes : List Node) (p : OpenScript)

theorem below_add (node : Node) : (p.below nodes).add node = (p.add node).below nodes := by
  obtain ⟨blocks, top⟩ := p
  cases blocks <;> rfl

theorem below_close (block : OpenBlock) (outer : List OpenBlock) :
    (p.below nodes).close block outer = (p.close block outer).below nodes :=
  below_add nodes { p with blocks := outer } _

/-- Acting on a role does not depend on the nodes read before. -/
theorem act_below (number : Nat) (role : LineRole) :
    (p.below nodes).act number role = (p.act number role).map (below nodes) := by
  cases role with
  | simple statement => exact congrArg Except.ok (below_add nodes p _)
  | opening opener =>
      simp only [act]
      show (if maxBlockDepth ≤ p.blocks.length then _ else _) = _
      split <;> rfl
  | leave =>
      simp only [act, below_add]
      show (if insideLoop p.blocks then _ else _) = _
      split <;> rfl
  | answer words =>
      simp only [act, below_add]
      show (if insideProcedure p.blocks then _ else _) = _
      split
      · cases readAnswer words <;> rfl
      · rfl
  | finish =>
      obtain ⟨blocks, top⟩ := p
      cases blocks with
      | nil => rfl
      | cons block outer =>
          exact congrArg Except.ok (below_close nodes ⟨block :: outer, top⟩ block outer)
  | otherwise =>
      obtain ⟨blocks, top⟩ := p
      cases blocks with
      | nil => rfl
      | cons block outer =>
          obtain ⟨line, opener, body⟩ := block
          cases opener <;> rfl

/-- Reading a line does not depend on the nodes read before. -/
theorem step_below (line : TokenLine) :
    (p.below nodes).step line = (p.step line).map (below nodes) := by
  unfold step
  cases line.role with
  | error cause => rfl
  | ok role =>
      simp only [act_below]
      cases p.act line.number role <;> rfl

/-- Reading lines does not depend on the nodes read before. -/
theorem steps_below (lines : List TokenLine) :
    (p.below nodes).steps lines = (p.steps lines).map (below nodes) := by
  induction lines generalizing p with
  | nil => rfl
  | cons line more ih =>
      rw [steps, steps, step_below]
      cases p.step line with
      | error fault => rfl
      | ok q => exact ih q

/-- At the end the nodes read before come first. -/
theorem finish_below : (p.below nodes).finish = p.finish.map (nodes.reverse ++ ·) := by
  obtain ⟨blocks, top⟩ := p
  cases blocks with
  | nil => exact congrArg Except.ok List.reverse_append
  | cons block outer => rfl

end OpenScript

namespace Script

/-- The lines after those of a script are read as on their own. -/
theorem of_lines_append {lines : List TokenLine} {script : Script}
    (h : ofLines lines = .ok script) (more : List TokenLine) :
    ofLines (lines ++ more) = (ofLines more).map (script ++ ·) := by
  unfold ofLines at h ⊢
  split at h
  · cases h
  · rename_i p hsteps
    obtain ⟨top, hp, rfl⟩ : ∃ top, p = OpenScript.start.below top ∧ top.reverse = script := by
      obtain ⟨blocks, top⟩ := p
      cases blocks with
      | nil => exact ⟨top, rfl, Except.ok.inj h⟩
      | cons block outer => cases h
    rw [OpenScript.steps_append hsteps, hp, OpenScript.steps_below]
    cases OpenScript.start.steps more with
    | error fault => rfl
    | ok q => exact q.finish_below top

/-- A text after the lines of a script is read as on its own, numbered from there on. -/
theorem of_text_append {text : String} {firstLine : Nat} {script : Script}
    (hend : text = "" ∨ text.toList.getLast? = some '\n')
    (h : ofText text firstLine = .ok script) (more : String) :
    ofText (text ++ more) firstLine =
      (ofText more (firstLine + (Text.lines text.toList).length)).map (script ++ ·) := by
  have hlines : Text.lines (text ++ more).toList =
      Text.lines text.toList ++ Text.lines more.toList := by
    rw [String.toList_append]
    refine Text.lines_append (hend.imp_left fun hempty => ?_) _
    rw [hempty]
    rfl
  unfold ofText at h ⊢
  split at h
  · cases h
  · rename_i lines hread
    rw [hlines, token_lines_append hread]
    cases tokenLines (firstLine + (Text.lines text.toList).length)
        (Text.lines more.toList) with
    | error bad => rfl
    | ok others => exact of_lines_append h others

end Script

end RobotBench
