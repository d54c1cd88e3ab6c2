import RobotBench.Proofs.Script.Reading
import RobotBench.Proofs.Script.TokenLines

/-!
# Writing scripts and reading them back

A tree of statements is well formed when it has words for all that is in it and everything
stands where it may. Written one statement a line, with every word in single quotes, it is
read back as it was, and its nodes get the numbers of their lines:
`read_written`.
-/

namespace RobotBench

/-! ## Well-formed scripts -/

/-- The word reads as the operand and fits on a line. -/
def Atom.Spelling (a : Atom) (word : String) : Prop := a.SpelledBy word ∧ '\n' ∉ word.toList

/-- There is a word for the argument: for its value alone, of a form that is not taken for
an argument with a key; with a key, for its value after the sign. -/
def Argument.Spellable (a : Argument) : Prop :=
  match a.key with
  | some key => isIdentifier key ∧ ∃ word, word ≠ "" ∧ a.value.Spelling word
  | none => ∃ word, ¬ IsKeyed word ∧ a.value.Spelling word

/-- There are words for the call. -/
def Call.Spellable (c : Call) : Prop := isIdentifier c.name ∧ ∀ a ∈ c.arguments, a.Spellable

/-- There are words for the condition. -/
def Condition.Spellable : Condition → Prop
  | .truthy operand => ∃ word, operand.Spelling word
  | .falsy operand => ∃ word, operand.Spelling word
  | .compare left _ right => (∃ word, left.Spelling word) ∧ ∃ word, right.Spelling word

/-- There are words for the line of the statement. -/
def Statement.Spellable : Statement → Prop
  | .assign name (.atom operand) => isIdentifier name ∧ ∃ word, operand.Spelling word
  | .assign name (.call c) => isIdentifier name ∧ c.Spellable ∧ c.arguments ≠ []
  | .call c => c.Spellable ∧ c.name ∉ keywords
  | .define name _ => isIdentifier name
  | .repeated count _ => ∃ word, count.Spelling word
  | .loop _ => True
  | .whilst condition _ => condition.Spellable
  | .branch condition _ _ => condition.Spellable
  | .leave => True
  | .answer none => True
  | .answer (some operand) => ∃ word, operand.Spelling word

/-- There are words for every statement of the script, and every statement is in scope. -/
structure Script.WellFormed (script : Script) : Prop where
  spellable : ∀ node ∈ preorder script, node.statement.Spellable
  inScope : NodesScoped .top script

/-! ## Lines and their numbers -/

mutual

/-- The number of lines that the statement takes. -/
def Statement.height : Statement → Nat
  | .define _ body => 2 + nodesHeight body
  | .repeated _ body => 2 + nodesHeight body
  | .loop body => 2 + nodesHeight body
  | .whilst _ body => 2 + nodesHeight body
  | .branch _ yes [] => 2 + nodesHeight yes
  | .branch _ yes no => 3 + nodesHeight yes + nodesHeight no
  | .assign _ _ => 1
  | .call _ => 1
  | .leave => 1
  | .answer _ => 1
  termination_by structural statement => statement

/-- The number of lines that the node takes. -/
def Node.height : Node → Nat
  | .mk _ statement => statement.height
  termination_by structural node => node

/-- The number of lines that the nodes take. -/
def nodesHeight : List Node → Nat
  | [] => 0
  | node :: more => node.height + nodesHeight more
  termination_by structural nodes => nodes

end

mutual

/-- The statement whose own line is followed by the line of the number. -/
def Statement.numbered (next : Nat) : Statement → Statement
  | .define name body => .define name (numberNodes next body)
  | .repeated count body => .repeated count (numberNodes next body)
  | .loop body => .loop (numberNodes next body)
  | .whilst condition body => .whilst condition (numberNodes next body)
  | .branch condition yes no => .branch condition (numberNodes next yes)
      (numberNodes (next + nodesHeight yes + 1) no)
  | .assign name value => .assign name value
  | .call c => .call c
  | .leave => .leave
  | .answer value => .answer value
  termination_by structural statement => statement

/-- The node on the line of the number. -/
def Node.numbered (number : Nat) : Node → Node
  | .mk _ statement => .mk number (statement.numbered (number + 1))
  termination_by structural node => node

/-- The nodes on lines that count up from the number. -/
def numberNodes (number : Nat) : List Node → List Node
  | [] => []
  | node :: more => node.numbered number :: numberNodes (number + node.height) more
  termination_by structural nodes => nodes

end

/-- The lines are the nodes, counted up from a number, as many as there are, and no word is
broken over lines. -/
structure WrittenFrom (number height : Nat) (nodes : List Node) (lines : List TokenLine) :
    Prop where
  layout : Layout nodes lines
  numbers : lines.map TokenLine.number = List.range' number height
  oneLined : OneLined lines

/-- The lines are the script written out from the line of the number. -/
def Script.WrittenOn (script : Script) (firstLine : Nat) (lines : List TokenLine) : Prop :=
  WrittenFrom firstLine lines.length (numberNodes firstLine script) lines

/-! ## There are words for what is spellable -/

/-- Words stand on one line when each of them does. -/
theorem words_one_lined_cons {word : String} {words : List String} :
    WordsOneLined (word :: words) ↔ '\n' ∉ word.toList ∧ WordsOneLined words :=
  List.forall_mem_cons

/-- No name has a line break in it. -/
theorem newline_not_mem_name {name : String} (h : isIdentifier name) : '\n' ∉ name.toList :=
  fun hmem => (name_part_ne (identifier_chars h _ hmem)).2 rfl

/-- An argument that is spellable has a word. -/
theorem Argument.exists_word {a : Argument} (h : a.Spellable) :
    ∃ word, a.SpelledBy word ∧ '\n' ∉ word.toList := by
  obtain ⟨key, operand⟩ := a
  cases key with
  | none =>
      obtain ⟨word, hkeyed, hspelled, hbreak⟩ := h
      exact ⟨word, ⟨hkeyed, hspelled⟩, hbreak⟩
  | some key =>
      obtain ⟨hkey, word, hword, hspelled, hbreak⟩ := h
      refine ⟨key ++ "=" ++ word, ⟨hkey, word, hword, rfl, hspelled⟩, ?_⟩
      rw [keyed_chars]
      simp only [List.mem_append, List.mem_cons, not_or]
      exact ⟨newline_not_mem_name hkey, by decide, hbreak⟩

/-- A call that is spellable has words. -/
theorem Call.exists_words {c : Call} (h : c.Spellable) :
    ∃ words, c.SpelledBy words ∧ WordsOneLined words := by
  obtain ⟨name, arguments⟩ := c
  obtain ⟨hname, harguments⟩ := h
  have hwords : ∃ words, List.Forall₂ Argument.SpelledBy arguments words ∧
      WordsOneLined words := by
    clear hname
    induction arguments with
    | nil => exact ⟨[], .nil, by simp [WordsOneLined]⟩
    | cons a more ih =>
        obtain ⟨hfirst, hmore⟩ := List.forall_mem_cons.1 harguments
        obtain ⟨word, hword, hbreak⟩ := Argument.exists_word hfirst
        obtain ⟨words, hwords, hbreaks⟩ := ih hmore
        exact ⟨word :: words, .cons hword hwords, words_one_lined_cons.2 ⟨hbreak, hbreaks⟩⟩
  obtain ⟨words, hspelled, hbreaks⟩ := hwords
  exact ⟨name :: words, ⟨hname, words, rfl, hspelled⟩,
    words_one_lined_cons.2 ⟨newline_not_mem_name hname, hbreaks⟩⟩

/-- A condition that is spellable has words. -/
theorem Condition.exists_words {c : Condition} (h : c.Spellable) :
    ∃ words, c.SpelledBy words ∧ WordsOneLined words := by
  cases c with
  | truthy operand =>
      obtain ⟨word, hspelled, hbreak⟩ := h
      exact ⟨[word], ⟨word, rfl, hspelled⟩, by simpa [WordsOneLined] using hbreak⟩
  | falsy operand =>
      obtain ⟨word, hspelled, hbreak⟩ := h
      exact ⟨["not", word], ⟨word, rfl, hspelled⟩, by simpa [WordsOneLined] using hbreak⟩
  | compare left comparison right =>
      obtain ⟨⟨first, hfirst, hbreak⟩, last, hlast, hbreaks⟩ := h
      refine ⟨[first, comparison.symbol, last], ⟨first, last, rfl, hfirst, hlast⟩, ?_⟩
      have hsign : '\n' ∉ comparison.symbol.toList := by cases comparison <;> decide
      simpa [WordsOneLined] using ⟨hbreak, hsign, hbreaks⟩

/-- A statement for which there are words has a line of its own. -/
theorem Statement.exists_words {s : Statement} (h : s.Spellable) :
    ∃ words, words ≠ [] ∧ s.Heading words ∧ WordsOneLined words := by
  cases s with
  | assign name value =>
      cases value with
      | atom operand =>
          obtain ⟨hname, word, hspelled, hbreak⟩ := h
          refine ⟨["let", name, "=", word], by simp, ⟨hname, word, rfl, hspelled⟩, ?_⟩
          simpa [WordsOneLined] using ⟨newline_not_mem_name hname, hbreak⟩
      | call c =>
          obtain ⟨hname, hc, hsome⟩ := h
          obtain ⟨words, hspelled, hbreaks⟩ := Call.exists_words hc
          refine ⟨"let" :: name :: "=" :: words, by simp,
            ⟨hname, hsome, words, rfl, hspelled⟩, ?_⟩
          simpa [WordsOneLined] using ⟨newline_not_mem_name hname, hbreaks⟩
  | call c =>
      obtain ⟨hc, hkeyword⟩ := h
      obtain ⟨words, hspelled, hbreaks⟩ := Call.exists_words hc
      refine ⟨words, ?_, ⟨hkeyword, hspelled⟩, hbreaks⟩
      obtain ⟨-, arguments, rfl, -⟩ := hspelled
      exact List.cons_ne_nil _ _
  | define name body =>
      refine ⟨["def", name], by simp, ⟨h, rfl⟩, ?_⟩
      simpa [WordsOneLined] using newline_not_mem_name h
  | repeated count body =>
      obtain ⟨word, hspelled, hbreak⟩ := h
      exact ⟨["repeat", word], by simp, ⟨word, rfl, hspelled⟩,
        by simpa [WordsOneLined] using hbreak⟩
  | loop body => exact ⟨["loop"], by simp, rfl, by simp [WordsOneLined]⟩
  | whilst condition body =>
      obtain ⟨words, hspelled, hbreaks⟩ := Condition.exists_words h
      exact ⟨"while" :: words, by simp, ⟨words, rfl, hspelled⟩,
        by simpa [WordsOneLined] using hbreaks⟩
  | branch condition yes no =>
      obtain ⟨words, hspelled, hbreaks⟩ := Condition.exists_words h
      exact ⟨"if" :: words, by simp, ⟨words, rfl, hspelled⟩,
        by simpa [WordsOneLined] using hbreaks⟩
  | leave => exact ⟨["break"], by simp, rfl, by simp [WordsOneLined]⟩
  | answer value =>
      cases value with
      | none => exact ⟨["return"], by simp, rfl, by simp [WordsOneLined]⟩
      | some operand =>
          obtain ⟨word, hspelled, hbreak⟩ := h
          exact ⟨["return", word], by simp, ⟨word, rfl, hspelled⟩,
            by simpa [WordsOneLined] using hbreak⟩

/-- A statement that is spellable has a line under every number. -/
theorem Statement.exists_line {s : Statement} (h : s.Spellable) (number : Nat) :
    ∃ line : TokenLine, line.number = number ∧ s.Heading line.tokens ∧
      WordsOneLined line.tokens := by
  obtain ⟨words, hwords, hheading, hbreaks⟩ := Statement.exists_words h
  obtain ⟨head, rest, rfl⟩ := List.exists_cons_of_ne_nil hwords
  exact ⟨⟨number, head, rest⟩, rfl, hheading, hbreaks⟩

/-! ## There are lines for what is spellable -/

/-- A keyword alone makes a line. -/
theorem exists_keyword_line (keyword : String) (number : Nat) :
    ∃ line : TokenLine, line.number = number ∧ line.tokens = [keyword] :=
  ⟨⟨number, keyword, []⟩, rfl, rfl⟩

/-- A keyword alone stands on one line. -/
theorem one_lined_keyword {line : TokenLine} {keyword : String} (h : '\n' ∉ keyword.toList)
    (hline : line.tokens = [keyword]) : WordsOneLined line.tokens := by
  rw [hline]
  exact List.forall_mem_singleton.2 h

namespace WrittenFrom

variable {number height : Nat} {nodes : List Node} {lines : List TokenLine}

/-- No nodes are written on no lines. -/
theorem nil (number : Nat) : WrittenFrom number 0 [] [] :=
  ⟨.nil, rfl, fun _ h => absurd h List.not_mem_nil⟩

/-- Nodes are written after each other. -/
theorem append {more : List Node} {rest : List TokenLine} {other : Nat}
    (h : WrittenFrom number height nodes lines)
    (hmore : WrittenFrom (number + height) other more rest) :
    WrittenFrom number (height + other) (nodes ++ more) (lines ++ rest) := by
  refine ⟨h.layout.append hmore.layout, ?_, ?_⟩
  · rw [List.map_append, h.numbers, hmore.numbers, List.range'_append_1]
  · exact List.forall_mem_append.2 ⟨h.oneLined, hmore.oneLined⟩

/-- A statement without blocks takes one line. -/
theorem plain {s : Statement} (hs : s.IsPlain) (h : s.Spellable) (number : Nat) :
    ∃ lines, WrittenFrom number 1 [.mk number s] lines := by
  obtain ⟨line, rfl, hheading, hbreaks⟩ := Statement.exists_line h number
  exact ⟨[line], .plain hs hheading .nil, rfl, List.forall_mem_singleton.2 hbreaks⟩

/-- A statement with one block takes a line before its body and one after it. -/
theorem block {o : Opener} {body : List Node} {inner : List TokenLine} (ho : o.IsFirst)
    (h : (o.close body).Spellable)
    (hbody : WrittenFrom (number + 1) height body inner) :
    ∃ lines, WrittenFrom number (2 + height) [.mk number (o.close body)] lines := by
  obtain ⟨line, rfl, hheading, hbreaks⟩ := Statement.exists_line h number
  obtain ⟨last, hend, hlast⟩ := exists_keyword_line "end" (line.number + 1 + height)
  refine ⟨line :: (inner ++ [last]), .block ho hheading hbody.layout hlast .nil, ?_, ?_⟩
  · rw [List.map_cons, List.map_append, List.map_singleton, hend, hbody.numbers,
      show 2 + height = height + 1 + 1 by omega, List.range'_succ, List.range'_1_concat]
  · refine List.forall_mem_cons.2 ⟨hbreaks, List.forall_mem_append.2 ⟨hbody.oneLined, ?_⟩⟩
    exact List.forall_mem_singleton.2 (one_lined_keyword (by decide) hlast)

/-- A statement with two blocks takes a line before each of them and one after both. -/
theorem choice {condition : Condition} {yes no : List Node} {first second : List TokenLine}
    {other : Nat} (h : condition.Spellable)
    (hyes : WrittenFrom (number + 1) height yes first)
    (hno : WrittenFrom (number + 1 + height + 1) other no second) :
    ∃ lines, WrittenFrom number (3 + height + other)
      [.mk number (.branch condition yes no)] lines := by
  have hs : (Statement.branch condition yes no).Spellable := h
  obtain ⟨line, rfl, hheading, hbreaks⟩ := Statement.exists_line hs number
  obtain ⟨middle, helse, hmiddle⟩ := exists_keyword_line "else" (line.number + 1 + height)
  obtain ⟨last, hend, hlast⟩ :=
    exists_keyword_line "end" (line.number + 1 + height + 1 + other)
  refine ⟨line :: (first ++ middle :: (second ++ [last])),
    .choice hheading hyes.layout hmiddle hno.layout hlast .nil, ?_, ?_⟩
  · have hheight : 3 + height + other = height + (other + 1 + 1) + 1 := by omega
    simp only [List.map_cons, List.map_append, List.map_nil, helse, hend, hyes.numbers,
      hno.numbers]
    rw [hheight, List.range'_succ, ← List.range'_append_1, List.range'_succ,
      List.range'_1_concat]
  · refine List.forall_mem_cons.2 ⟨hbreaks, List.forall_mem_append.2 ⟨hyes.oneLined, ?_⟩⟩
    refine List.forall_mem_cons.2 ⟨one_lined_keyword (by decide) hmiddle, ?_⟩
    refine List.forall_mem_append.2 ⟨hno.oneLined, ?_⟩
    exact List.forall_mem_singleton.2 (one_lined_keyword (by decide) hlast)

end WrittenFrom

mutual

/-- There are lines for a statement when there are words for it and all it holds. -/
theorem Statement.exists_lines (s : Statement) (number : Nat) (h : s.Spellable)
    (hnested : ∀ node ∈ s.nested, node.statement.Spellable) :
    ∃ lines, WrittenFrom number s.height [.mk number (s.numbered (number + 1))] lines := by
  cases s with
  | assign name value => exact WrittenFrom.plain (s := .assign name value) trivial h number
  | call c => exact WrittenFrom.plain (s := .call c) trivial h number
  | leave => exact WrittenFrom.plain (s := .leave) trivial h number
  | answer value => exact WrittenFrom.plain (s := .answer value) trivial h number
  | define name body =>
      obtain ⟨inner, hinner⟩ := exists_lines body (number + 1) hnested
      exact WrittenFrom.block (o := .define name) trivial h hinner
  | repeated count body =>
      obtain ⟨inner, hinner⟩ := exists_lines body (number + 1) hnested
      exact WrittenFrom.block (o := .repeated count) trivial h hinner
  | loop body =>
      obtain ⟨inner, hinner⟩ := exists_lines body (number + 1) hnested
      exact WrittenFrom.block (o := .loop) trivial h hinner
  | whilst condition body =>
      obtain ⟨inner, hinner⟩ := exists_lines body (number + 1) hnested
      exact WrittenFrom.block (o := .whilst condition) trivial h hinner
  | branch condition yes no =>
      obtain ⟨hyes, hno⟩ := List.forall_mem_append.1 hnested
      obtain ⟨first, hfirst⟩ := exists_lines yes (number + 1) hyes
      obtain ⟨second, hsecond⟩ := exists_lines no (number + 1 + nodesHeight yes + 1) hno
      cases no with
      | nil => exact WrittenFrom.block (o := .branch condition) trivial h hfirst
      | cons node more => exact WrittenFrom.choice h hfirst hsecond

/-- There are lines for a node when there are words for it and all it holds. -/
theorem Node.exists_lines (node : Node) (number : Nat)
    (h : ∀ inner ∈ node.preorder, inner.statement.Spellable) :
    ∃ lines, WrittenFrom number node.height [node.numbered number] lines := by
  cases node with
  | mk line s =>
      obtain ⟨hs, hnested⟩ := List.forall_mem_cons.1 h
      exact Statement.exists_lines s number hs hnested

/-- There are lines for nodes when there are words for all of them. -/
theorem exists_lines (nodes : List Node) (number : Nat)
    (h : ∀ node ∈ preorder nodes, node.statement.Spellable) :
    ∃ lines, WrittenFrom number (nodesHeight nodes) (numberNodes number nodes) lines := by
  cases nodes with
  | nil => exact ⟨[], .nil number⟩
  | cons node more =>
      rw [preorder_cons, ← List.cons_append] at h
      obtain ⟨hnode, hmore⟩ := List.forall_mem_append.1 h
      obtain ⟨lines, hlines⟩ := Node.exists_lines node number (by cases node; exact hnode)
      obtain ⟨rest, hrest⟩ := exists_lines more (number + node.height) hmore
      exact ⟨lines ++ rest, hlines.append hrest⟩

end

/-! ## Numbers do not move statements -/

mutual

/-- New line numbers do not change whether a statement is in its scope. -/
theorem Statement.scoped_numbered {scope : Scope} (s : Statement) (next : Nat)
    (h : s.Scoped scope) : (s.numbered next).Scoped scope := by
  cases s with
  | define name body => exact ⟨h.1, nodes_scoped_numbered body next h.2⟩
  | repeated count body => exact ⟨h.1, nodes_scoped_numbered body next h.2⟩
  | loop body => exact ⟨h.1, nodes_scoped_numbered body next h.2⟩
  | whilst condition body => exact ⟨h.1, nodes_scoped_numbered body next h.2⟩
  | branch condition yes no =>
      exact ⟨h.1, nodes_scoped_numbered yes next h.2.1, nodes_scoped_numbered no _ h.2.2⟩
  | assign name value => exact h
  | call c => exact h
  | leave => exact h
  | answer value => exact h

/-- New line numbers do not change whether a node is in its scope. -/
theorem Node.scoped_numbered {scope : Scope} (node : Node) (number : Nat)
    (h : node.Scoped scope) : (node.numbered number).Scoped scope := by
  cases node with
  | mk line s => exact Statement.scoped_numbered s (number + 1) h

/-- Numbered nodes stand in the scopes in which they stood. -/
theorem nodes_scoped_numbered {scope : Scope} (nodes : List Node) (number : Nat)
    (h : NodesScoped scope nodes) : NodesScoped scope (numberNodes number nodes) := by
  cases nodes with
  | nil => exact trivial
  | cons node more =>
      exact ⟨Node.scoped_numbered node number h.1,
        nodes_scoped_numbered more (number + node.height) h.2⟩

end

/-! ## Reading back -/

/-- A well-formed script can be written out from any line on, and however its operands are
spelled there, the text that this makes is read as the script, each node numbered with its
line. -/
theorem read_written {script : Script} (h : script.WellFormed) (firstLine : Nat) :
    (∃ lines, script.WrittenOn firstLine lines) ∧
      ∀ lines, script.WrittenOn firstLine lines →
        Script.ofText (TokenLine.writeAll lines) firstLine =
          .ok (numberNodes firstLine script) := by
  constructor
  · obtain ⟨lines, hlines⟩ := exists_lines script firstLine h.spellable
    have hlength : lines.length = nodesHeight script := by
      simpa using congrArg List.length hlines.numbers
    exact ⟨lines, hlines.layout, hlength ▸ hlines.numbers, hlines.oneLined⟩
  · intro lines hlines
    have htokens := token_lines_written hlines.numbers hlines.oneLined
    have hread := OpenScript.of_lines_complete hlines.layout
      (nodes_scoped_numbered script firstLine h.inScope)
    rw [Script.ofText, htokens]
    exact hread

/-- A loop to leave inside a procedure, and a call whose words hold quotes and blanks. -/
theorem read_written_nested :
    let script : Script := [
      .mk 0 (.define "f" [.mk 0 (.loop [.mk 0 .leave]), .mk 0 (.answer none)]),
      .mk 0 (.branch (.falsy (.word "f"))
        [.mk 0 (.call ⟨"print", [⟨none, .word "it's # 1"⟩, ⟨some "k", .variable "x"⟩]⟩)]
        [.mk 0 (.call ⟨"f", []⟩)])]
    script.WellFormed ∧ ∃ lines, script.WrittenOn 7 lines ∧
      Script.ofText (TokenLine.writeAll lines) 7 = .ok (numberNodes 7 script) := by
  intro script
  have hplain : (⟨none, .word "it's # 1"⟩ : Argument).SpelledBy "it's # 1" :=
    Argument.of_word_iff.1 (by decide)
  have h : script.WellFormed := by
    constructor
    · intro node hnode
      simp only [script, preorder_cons, preorder_nil, Node.statement, Statement.nested,
        List.nil_append, List.append_nil, List.cons_append, List.mem_cons,
        List.not_mem_nil, or_false] at hnode
      rcases hnode with rfl | rfl | rfl | rfl | rfl | rfl | rfl
      · show isIdentifier "f" = true
        decide
      · trivial
      · trivial
      · trivial
      · exact ⟨"f", by show Atom.ofWord "f" = _; decide, by decide⟩
      · refine ⟨⟨by decide, ?_⟩, by decide⟩
        intro a ha
        rcases List.mem_pair.1 ha with rfl | rfl
        · exact ⟨"it's # 1", hplain.1, hplain.2, by decide⟩
        · exact ⟨by decide, "$x", by decide, by show Atom.ofWord "$x" = _; decide, by decide⟩
      · exact ⟨⟨by decide, fun a ha => absurd ha List.not_mem_nil⟩, by decide⟩
    · decide
  obtain ⟨⟨lines, hlines⟩, hread⟩ := read_written h 7
  exact ⟨h, lines, hlines, hread lines hlines⟩

end RobotBench
