import Mathlib
import RobotBench.Proofs.Script.Reading
import RobotBench.Proofs.Script.TokenLines

/-!
# Accepted texts

What is known of a text that is read as a script: `accepted_text`. The script is exactly
what stands on the lines that say something, every node knows the line on which it stands,
and names, loops, procedures and nesting are as the language asks.
-/

namespace RobotBench

/-- Everything that a statement names when it assigns, defines or calls is a name. -/
def Statement.Named : Statement → Prop
  | .assign name (.atom _) => isIdentifier name
  | .assign name (.call c) => isIdentifier name ∧ isIdentifier c.name
  | .call c => isIdentifier c.name
  | .define name _ => isIdentifier name
  | _ => True

/-- A statement with a line of its own is named. -/
theorem Statement.named_of_heading {s : Statement} {words : List String}
    (h : s.Heading words) : s.Named := by
  cases s with
  | assign name value =>
      cases value with
      | atom operand => exact h.1
      | call c =>
          obtain ⟨hname, _, _, _, hc⟩ := h
          exact ⟨hname, hc.1⟩
  | call c => exact h.2.1
  | define name body => exact h.1
  | _ => trivial

/-- A text that is read as a script is read off its token lines. -/
theorem of_text_lines {text : String} {firstLine : Nat} {script : Script}
    (h : Script.ofText text firstLine = .ok script) :
    (∀ cs ∈ Text.lines text.toList, lineWords? cs ≠ none) ∧
      Script.ofLines (significantLines firstLine (Text.lines text.toList)) = .ok script := by
  unfold Script.ofText at h
  split at h
  · cases h
  · rename_i lines hlines
    obtain ⟨hreadable, rfl⟩ := token_lines_iff.1 hlines
    exact ⟨hreadable, h⟩

/-- A text is read as a script only if everything in it stands where it may. -/
theorem of_text_scoped {text : String} {firstLine : Nat} {script : Script}
    (h : Script.ofText text firstLine = .ok script) : NodesScoped .top script :=
  (OpenScript.of_lines_sound (of_text_lines h).2).2

/-- A readable line that is neither blank nor a comment has words. -/
theorem line_words_cons_iff {cs : List Char} (hbreak : '\n' ∉ cs)
    (hreadable : lineWords? cs ≠ none) :
    (∃ head rest, lineWords? cs = some (head :: rest)) ↔ ¬ IsSilent cs := by
  rw [← line_words_nil_iff hbreak]
  cases hwords : lineWords? cs with
  | none => exact absurd hwords hreadable
  | some words => cases words <;> simp

/-- Of a text that is read as a script: the script is laid out on the lines that say
something, which are all but the blank ones and the comments. The numbers of its nodes, in
the order written, increase, and each is that of the line on which the words of the node
stand. Every `break` is in a loop of its procedure, every `return` in a procedure, no block
is too deep, and everything named has a name. -/
theorem accepted_text {text : String} {firstLine : Nat} {script : Script}
    (h : Script.ofText text firstLine = .ok script) :
    (Layout script (significantLines firstLine (Text.lines text.toList)) ∧
      ∀ cs ∈ Text.lines text.toList,
        (∃ head rest, lineWords? cs = some (head :: rest)) ↔ ¬ IsSilent cs) ∧
    (((preorder script).map Node.line).Pairwise (· < ·) ∧
      ∀ node ∈ preorder script, ∃ index cs words,
        (Text.lines text.toList)[index]? = some cs ∧ lineWords? cs = some words ∧
          node.statement.Heading words ∧ node.line = firstLine + index) ∧
    NodesScoped .top script ∧ ∀ node ∈ preorder script, node.statement.Named := by
  obtain ⟨hreadable, hlines⟩ := of_text_lines h
  obtain ⟨hlayout, hscoped⟩ := OpenScript.of_lines_sound hlines
  refine ⟨⟨hlayout, fun cs hcs => ?_⟩, ⟨?_, fun node hnode => ?_⟩, hscoped, fun node hnode => ?_⟩
  · exact line_words_cons_iff (Text.newline_not_mem_lines hcs) (hreadable cs hcs)
  · exact (significant_lines_increase _ _).sublist hlayout.numbers_sublist
  · obtain ⟨line, hline, hnumber, hheading⟩ := hlayout.heading node hnode
    obtain ⟨index, cs, hindex, hwords, hline⟩ := mem_significant_lines hline
    exact ⟨index, cs, _, hindex, hwords, hheading, hnumber.trans hline⟩
  · obtain ⟨_, _, _, hheading⟩ := hlayout.heading node hnode
    exact Statement.named_of_heading hheading

/-- A procedure with a loop to leave, and an `if` with an `else`, after a comment. -/
theorem accepted_text_nested :
    let text := "# go\ndef f\n  loop\n    break\n  end\nend\n\nif not f\n  f\nelse\nend"
    let script : Script := [
      .mk 4 (.define "f" [.mk 5 (.loop [.mk 6 .leave])]),
      .mk 10 (.branch (.falsy (.word "f")) [.mk 11 (.call ⟨"f", []⟩)] [])]
    Script.ofText text 3 = .ok script ∧
      Layout script (significantLines 3 (Text.lines text.toList)) ∧
      ((preorder script).map Node.line).Pairwise (· < ·) ∧ NodesScoped .top script := by
  intro text script
  have h : Script.ofText text 3 = .ok script := by cbv
  obtain ⟨⟨hlayout, -⟩, ⟨hnumbers, -⟩, hscoped, -⟩ := accepted_text h
  exact ⟨h, hlayout, hnumbers, hscoped⟩

end RobotBench
