import RobotBench.Proofs.Script.Grammar
import RobotBench.Proofs.Script.Joining

/-!
# Blocks that are open where a text is cut

Which block is open after some lines, said of the first words of the lines alone: `OpenAfter`
is a line that opens a block, after which every block that is opened is closed. What has been
read of a script keeps account of it (`Unfinished.open_after`). So the first lines of a script
are a script exactly if no block is open after them, and otherwise the innermost one is blamed:
`cut_text_blames_block`.
-/

namespace RobotBench

/-! ## Lines that open and close blocks -/

/-- The line opens a block. -/
def TokenLine.Opens (line : TokenLine) : Prop :=
  line.head ∈ ["def", "repeat", "loop", "while", "if"]

instance (line : TokenLine) : Decidable line.Opens := inferInstanceAs (Decidable (_ ∈ _))

/-- The line closes a block. -/
def TokenLine.Closes (line : TokenLine) : Prop := line.head = "end"

instance (line : TokenLine) : Decidable line.Closes := inferInstanceAs (Decidable (_ = _))

/-- Every block that the lines open they close, and they close no other. -/
inductive Balanced : List TokenLine → Prop
  | nil : Balanced []
  | line {line : TokenLine} {more : List TokenLine} : ¬ line.Opens → ¬ line.Closes →
      Balanced more → Balanced (line :: more)
  | block {line last : TokenLine} {inner more : List TokenLine} : line.Opens → Balanced inner →
      last.Closes → Balanced more → Balanced (line :: (inner ++ last :: more))

/-- The line opens the innermost of the blocks that are open after the lines. -/
def OpenAfter (lines : List TokenLine) (line : TokenLine) : Prop :=
  ∃ before after, lines = before ++ line :: after ∧ line.Opens ∧ Balanced after

theorem TokenLine.Opens.not_closes {line : TokenLine} (h : line.Opens) : ¬ line.Closes := by
  intro hcloses
  rw [Opens, hcloses] at h
  exact absurd h (by decide)

theorem TokenLine.Closes.not_opens {line : TokenLine} (h : line.Closes) : ¬ line.Opens :=
  fun hopens => hopens.not_closes h

namespace Balanced

variable {lines more : List TokenLine}

theorem append (h : Balanced lines) (hmore : Balanced more) : Balanced (lines ++ more) := by
  induction h with
  | nil => exact hmore
  | line hopens hcloses _ ih => exact .line hopens hcloses ih
  | block hopens hinner hlast _ _ ih =>
      rw [List.cons_append, List.append_assoc, List.cons_append]
      exact .block hopens hinner hlast ih

/-- As many blocks are opened as closed. -/
theorem opened_eq_closed (h : Balanced lines) :
    lines.countP TokenLine.Opens = lines.countP TokenLine.Closes := by
  induction h with
  | nil => rfl
  | line hopens hcloses _ ih => simpa [hopens, hcloses] using ih
  | block hopens _ hlast _ ihinner ihmore =>
      simp only [List.countP_cons, List.countP_append, hopens, hopens.not_closes, hlast,
        hlast.not_opens, decide_true, decide_false, Bool.false_eq_true, if_true, if_false,
        ihinner, ihmore]
      omega

/-- At the end of the lines no more blocks are opened than closed, wherever one begins. -/
theorem opened_le_closed (h : Balanced lines) {before after : List TokenLine}
    (hsplit : lines = before ++ after) :
    after.countP TokenLine.Opens ≤ after.countP TokenLine.Closes := by
  -- by induction on the lines, for all places at which the end can begin; from the first line
  -- on the counts are equal
  induction h generalizing before after with
  | nil =>
      obtain ⟨-, rfl⟩ := List.append_eq_nil_iff.1 hsplit.symm
      exact Nat.le_refl _
  | line hopens hcloses hmore ih =>
      cases before with
      | nil =>
          rw [List.nil_append] at hsplit
          exact Nat.le_of_eq (hsplit ▸ (Balanced.line hopens hcloses hmore).opened_eq_closed)
      | cons _ before => exact ih (List.cons.inj hsplit).2
  | @block line last inner more hopens hinner hlast hmore ihinner ihmore =>
      cases before with
      | nil =>
          rw [List.nil_append] at hsplit
          exact Nat.le_of_eq (hsplit ▸ (Balanced.block hopens hinner hlast hmore).opened_eq_closed)
      | cons _ before =>
          rcases List.append_eq_append_iff.1 (List.cons.inj hsplit).2 with
            ⟨middle, -, hrest⟩ | ⟨middle, rfl, rfl⟩
          · -- the end begins at the line that closes the block, or after it
            cases middle with
            | nil =>
                rw [List.nil_append] at hrest
                rw [← hrest, List.countP_cons, List.countP_cons, hmore.opened_eq_closed]
                simp [hlast.not_opens]
            | cons _ middle => exact ihmore (List.cons.inj hrest).2
          · -- the end begins in the block
            have hmiddle := ihinner rfl
            simp only [List.countP_append, List.countP_cons, hmore.opened_eq_closed, hlast,
              hlast.not_opens, decide_true, decide_false, Bool.false_eq_true, if_true, if_false]
            omega

/-- After balanced lines no block is open. -/
theorem not_open_after (h : Balanced lines) (line : TokenLine) : ¬ OpenAfter lines line := by
  rintro ⟨before, after, hsplit, hopens, hafter⟩
  have hcount := h.opened_le_closed hsplit
  simp only [List.countP_cons, hafter.opened_eq_closed, hopens, hopens.not_closes, decide_true,
    decide_false, Bool.false_eq_true, if_true, if_false] at hcount
  omega

end Balanced

/-- At most one block is the innermost open one. -/
theorem OpenAfter.unique {lines : List TokenLine} {line other : TokenLine}
    (h : OpenAfter lines line) (hother : OpenAfter lines other) : line = other := by
  obtain ⟨before, after, rfl, hopens, hafter⟩ := h
  obtain ⟨before', after', hsplit, hopens', hafter'⟩ := hother
  rcases List.append_eq_append_iff.1 hsplit with ⟨middle, -, hrest⟩ | ⟨middle, -, hrest⟩
  · cases middle with
    | nil => exact (List.cons.inj hrest).1
    | cons _ middle =>
        exact absurd ⟨middle, after', (List.cons.inj hrest).2, hopens', hafter'⟩
          (hafter.not_open_after other)
  · cases middle with
    | nil => exact (List.cons.inj hrest).1.symm
    | cons _ middle =>
        exact absurd ⟨middle, after, (List.cons.inj hrest).2, hopens, hafter⟩
          (hafter'.not_open_after line)

/-! ## What has been read -/

/-- A line without blocks of its own opens and closes none. -/
theorem Statement.Heading.not_block {s : Statement} {line : TokenLine}
    (h : s.Heading line.tokens) (hs : s.IsPlain) : ¬ line.Opens ∧ ¬ line.Closes := by
  have hhead {word : String} {rest : List String} (hwords : line.tokens = word :: rest)
      (hword : word ∉ ["def", "repeat", "loop", "while", "if"] ∧ word ≠ "end") :
      ¬ line.Opens ∧ ¬ line.Closes := by
    obtain ⟨rfl, -⟩ := List.cons.inj hwords
    exact hword
  cases s with
  | assign name value =>
      cases value with
      | atom operand =>
          obtain ⟨-, word, hwords, -⟩ := h
          exact hhead hwords (by decide)
      | call c =>
          obtain ⟨-, -, right, hwords, -⟩ := h
          exact hhead hwords (by decide)
  | call c =>
      obtain ⟨hname, -, arguments, hwords, -⟩ := h
      refine hhead hwords ⟨fun hmem => hname ?_, fun hend => hname (hend ▸ by decide)⟩
      simp only [List.mem_cons, List.not_mem_nil, or_false] at hmem
      rcases hmem with hmem | hmem | hmem | hmem | hmem <;> rw [hmem] <;> decide
  | leave => exact hhead h (by decide)
  | answer value =>
      cases value with
      | none => exact hhead h (by decide)
      | some operand =>
          obtain ⟨word, hwords, -⟩ := h
          exact hhead hwords (by decide)
  | _ => exact False.elim hs

/-- The line of a block begins with its keyword. -/
theorem Opener.head_eq (o : Opener) (body : List Node) {line : TokenLine}
    (h : (o.close body).Heading line.tokens) : line.head = o.keyword := by
  cases o with
  | define name => exact (List.cons.inj h.2).1
  | loop => exact (List.cons.inj h).1
  | repeated count =>
      obtain ⟨word, hwords, -⟩ := h
      exact (List.cons.inj hwords).1
  | whilst condition | branch condition | otherwise condition yes =>
      obtain ⟨right, hwords, -⟩ := h
      exact (List.cons.inj hwords).1

theorem TokenLine.opens_of_keyword {line : TokenLine} {o : Opener} (h : line.head = o.keyword) :
    line.Opens := by
  rw [Opens, h]
  cases o <;> simp [Opener.keyword]

/-- The line that begins a second branch opens and closes nothing. -/
theorem balanced_otherwise {line : TokenLine} (h : line.tokens = ["else"]) : Balanced [line] := by
  have hhead : line.head = "else" := (List.cons.inj h).1
  refine .line ?_ ?_ .nil
  · rw [TokenLine.Opens, hhead]
    decide
  · rw [TokenLine.Closes, hhead]
    decide

/-- The lines of whole statements are balanced. -/
theorem Layout.balanced {nodes : List Node} {lines : List TokenLine} (h : Layout nodes lines) :
    Balanced lines := by
  induction h with
  | nil => exact .nil
  | plain hs hheading _ ih =>
      obtain ⟨hopens, hcloses⟩ := hheading.not_block hs
      exact .line hopens hcloses ih
  | block _ hheading _ hlast _ ihbody ihmore =>
      exact .block (TokenLine.opens_of_keyword (Opener.head_eq _ _ hheading)) ihbody
        (List.cons.inj hlast).1 ihmore
  | @choice condition yes no line middle last first second nodes lines hheading _ hmiddle _ hlast
      _ ihyes ihno ihmore =>
      have hhead : line.head = (Opener.branch condition).keyword :=
        Opener.head_eq (.branch condition) yes hheading
      have hinner := ihyes.append ((balanced_otherwise hmiddle).append ihno)
      have hall := Balanced.block (TokenLine.opens_of_keyword hhead) hinner
        (List.cons.inj hlast).1 ihmore
      simpa using hall

/-- What opened a block is the line with its number and keyword, and balanced lines. -/
theorem OpenBlock.OpenedBy.line {block : OpenBlock} {opening : List TokenLine}
    (h : block.OpenedBy opening) : ∃ line after, opening = line :: after ∧
      line.number = block.line ∧ line.head = block.opener.keyword ∧ Balanced after := by
  obtain ⟨number, opener, body⟩ := block
  cases opener with
  | otherwise condition yes =>
      obtain ⟨line, first, middle, rfl, hnumber, hheading, hyes, hmiddle⟩ := h
      exact ⟨line, _, rfl, hnumber, Opener.head_eq (.branch condition) yes hheading,
        hyes.balanced.append (balanced_otherwise hmiddle)⟩
  | _ =>
      obtain ⟨line, rfl, hnumber, hheading⟩ := h
      exact ⟨line, [], rfl, hnumber, Opener.head_eq _ _ hheading, .nil⟩

/-- The innermost block of what has been read is the one that is open after its lines. -/
theorem Unfinished.open_after {top : List Node} {block : OpenBlock} {outer : List OpenBlock}
    {lines : List TokenLine} (h : Unfinished top (block :: outer) lines) :
    ∃ line, OpenAfter lines line ∧ line.number = block.line ∧
      line.head = block.opener.keyword := by
  cases h with
  | @block _ _ before opening inner _ hopening hbody =>
      obtain ⟨line, after, rfl, hnumber, hhead, hafter⟩ := hopening.line
      exact ⟨line, ⟨before, after ++ inner, rfl, TokenLine.opens_of_keyword hhead,
        hafter.append hbody.balanced⟩, hnumber, hhead⟩

/-! ## The first lines of a script -/

namespace OpenScript

/-- Of lines that are read the first ones are read, too. -/
theorem steps_front {lines more : List TokenLine} {p q : OpenScript}
    (h : p.steps (lines ++ more) = .ok q) : ∃ r, p.steps lines = .ok r := by
  induction lines generalizing p with
  | nil => exact ⟨p, rfl⟩
  | cons line rest ih =>
      rw [List.cons_append, steps] at h
      rw [steps]
      split at h
      · cases h
      · rename_i r hstep
        exact ih h

end OpenScript

/-- The first lines of a script are balanced and a script, or a block is open after them and
blamed. -/
theorem of_lines_front {lines more : List TokenLine} {script : Script}
    (h : Script.ofLines (lines ++ more) = .ok script) :
    (Balanced lines ∧ ∃ script', Script.ofLines lines = .ok script') ∨
      ∃ line, OpenAfter lines line ∧
        Script.ofLines lines = .error ⟨line.number, .missingEnd line.head⟩ := by
  obtain ⟨p, hp⟩ : ∃ p, OpenScript.start.steps lines = .ok p := by
    unfold Script.ofLines at h
    split at h
    · cases h
    · rename_i q hsteps
      exact OpenScript.steps_front hsteps
  have hread : Script.ofLines lines = p.finish := by rw [Script.ofLines, hp]
  have hunfinished := (OpenScript.covers_start.steps hp).unfinished
  rw [List.nil_append] at hunfinished
  obtain ⟨blocks, top⟩ := p
  cases blocks with
  | nil =>
      cases hunfinished with
      | top hlayout => exact .inl ⟨hlayout.balanced, top.reverse, hread⟩
  | cons block outer =>
      obtain ⟨line, hopen, hnumber, hhead⟩ := hunfinished.open_after
      refine .inr ⟨line, hopen, ?_⟩
      rw [hread, hnumber, hhead]
      rfl

/-! ## Cut texts -/

/-- The first lines of a text. -/
def Text.firstLines (count : Nat) (text : String) : String :=
  String.ofList ((Text.pieces text.toList).take count).flatten

theorem Text.lines_first_lines (count : Nat) (text : String) :
    Text.lines (Text.firstLines count text).toList = (Text.lines text.toList).take count := by
  rw [firstLines, String.toList_ofList, lines, lines, pieces_flatten_take, List.map_take]

/-- The first lines of a text that is a script are readable. -/
theorem of_first_lines {text : String} {firstLine : Nat} {script : Script}
    (h : Script.ofText text firstLine = .ok script) (count : Nat) :
    Script.ofText (Text.firstLines count text) firstLine =
      Script.ofLines (significantLines firstLine ((Text.lines text.toList).take count)) := by
  have hread : tokenLines firstLine ((Text.lines text.toList).take count) = .ok _ :=
    token_lines_iff.2 ⟨fun cs hcs => (of_text_lines h).1 cs (List.mem_of_mem_take hcs), rfl⟩
  rw [Script.ofText, Text.lines_first_lines, hread]

/-- A fault about a keyword has one message, in which the keyword is quoted. -/
theorem ParseFault.messages_keyword {f : ParseFault} {keyword rest : String}
    (hcause : f.cause ≠ .unclosedQuote) (h : f.cause.message = s!"`{keyword}{rest}") :
    f.messages = [s!"line {f.line}: `{keyword}{rest}"] := by
  have hjoin : ": `" = ": " ++ "`" := rfl
  rw [messages, if_neg hcause, h, hjoin]
  simp only [toString, String.append_assoc]

/-- A text of one line that closes a block or begins a second branch is no script. -/
theorem of_text_stray {text : String} {cs : List Char} {keyword : String} (firstLine : Nat)
    (hkeyword : keyword ∈ ["end", "else"]) (hlines : Text.lines text.toList = [cs])
    (hwords : lineWords? cs = some [keyword]) :
    Script.ofText text firstLine = .error ⟨firstLine, .noOpenBlock keyword⟩ := by
  have hread : tokenLines firstLine (Text.lines text.toList) =
      .ok [⟨firstLine, keyword, []⟩] := by
    rw [hlines, tokenLines, hwords]
    rfl
  rw [Script.ofText, hread]
  simp only [List.mem_cons, List.not_mem_nil, or_false] at hkeyword
  rcases hkeyword with rfl | rfl <;> rfl

/-- Of a text that is a script, and cut after some of its lines: the cut text is a script
exactly if no block is open at the cut, and otherwise the fault is that the block which was
opened last of those still open is missing its `end`. In the second branch of an `if` that is
the line of the `if`. And the whole text, with one more line that says only `end` or `else`, is
no script, and this line is blamed. -/
theorem cut_text_blames_block {text : String} {firstLine : Nat} {script : Script}
    (h : Script.ofText text firstLine = .ok script) :
    (∀ count,
      let cut := Script.ofText (Text.firstLines count text) firstLine
      let lines := significantLines firstLine ((Text.lines text.toList).take count)
      ((∃ script', cut = .ok script') ↔ ¬ ∃ line, OpenAfter lines line) ∧
      ∀ line, OpenAfter lines line → ∃ fault, cut = .error fault ∧
        fault.messages = [s!"line {line.number}: `{line.head}` block is missing `end`"]) ∧
    ((text = "" ∨ text.toList.getLast? = some '\n') →
      ∀ keyword ∈ ["end", "else"], ∀ last cs, Text.lines last.toList = [cs] →
        lineWords? cs = some [keyword] →
        let number := firstLine + (Text.lines text.toList).length
        ∃ fault, Script.ofText (text ++ last) firstLine = .error fault ∧
          fault.messages = [s!"line {number}: `{keyword}` without an open block"]) := by
  refine ⟨fun count => ?_, fun hend keyword hkeyword last cs hlast hwords => ?_⟩
  · intro cut lines
    have hcut : cut = Script.ofLines lines := of_first_lines h count
    have hwhole := (of_text_lines h).2
    rw [← List.take_append_drop count (Text.lines text.toList), significant_lines_append] at hwhole
    rw [hcut]
    rcases of_lines_front hwhole with ⟨hbalanced, hscript⟩ | ⟨line, hopen, hfault⟩
    · have hnot (line : TokenLine) : ¬ OpenAfter lines line := hbalanced.not_open_after line
      exact ⟨⟨fun _ => not_exists.2 hnot, fun _ => hscript⟩,
        fun line hopen => absurd hopen (hnot line)⟩
    · refine ⟨⟨?_, fun hnone => absurd ⟨line, hopen⟩ hnone⟩, fun other hother => ?_⟩
      · rintro ⟨script', hscript⟩
        rw [hfault] at hscript
        cases hscript
      · obtain rfl := hother.unique hopen
        exact ⟨_, hfault, ParseFault.messages_keyword nofun rfl⟩
  · refine ⟨⟨firstLine + (Text.lines text.toList).length, .noOpenBlock keyword⟩, ?_,
      ParseFault.messages_keyword nofun rfl⟩
    rw [Script.of_text_append hend h, of_text_stray _ hkeyword hlast hwords]
    rfl

/-- An `if` cut in its second branch, and in the loop that stands there. -/
theorem cut_text_second_branch :
    let text := "if true\nloop\nbreak\nend\nelse\nwhile true\nf\nend\nend\n"
    let script : Script := [
      .mk 3 (.branch (.truthy (.literal (.bool true))) [.mk 4 (.loop [.mk 5 .leave])]
        [.mk 8 (.whilst (.truthy (.literal (.bool true))) [.mk 9 (.call ⟨"f", []⟩)])])]
    Script.ofText text 3 = .ok script ∧
      (∃ fault, Script.ofText (Text.firstLines 5 text) 3 = .error fault ∧
        fault.messages = ["line 3: `if` block is missing `end`"]) ∧
      (∃ fault, Script.ofText (Text.firstLines 6 text) 3 = .error fault ∧
        fault.messages = ["line 8: `while` block is missing `end`"]) ∧
      ∃ fault, Script.ofText (text ++ "end") 3 = .error fault ∧
        fault.messages = ["line 12: `end` without an open block"] := by
  intro text script
  have h : Script.ofText text 3 = .ok script := by
    unfold text script
    rfl
  have hyes : Balanced (⟨4, "loop", []⟩ :: ([⟨5, "break", []⟩] ++
      ⟨6, "end", []⟩ :: [⟨7, "else", []⟩])) :=
    .block (by decide) (.line (by decide) (by decide) .nil) (by decide)
      (.line (by decide) (by decide) .nil)
  have hbranch : OpenAfter (significantLines 3 ((Text.lines text.toList).take 5))
      ⟨3, "if", ["true"]⟩ := by
    refine ⟨[], _, ?_, by decide, hyes⟩
    unfold text
    rfl
  have hloop : OpenAfter (significantLines 3 ((Text.lines text.toList).take 6))
      ⟨8, "while", ["true"]⟩ := by
    refine ⟨(significantLines 3 ((Text.lines text.toList).take 5)), [], ?_, by decide, .nil⟩
    unfold text
    rfl
  have hends : text.toList.getLast? = some '\n' := by
    unfold text
    rfl
  have hlength : (Text.lines text.toList).length = 9 := by
    unfold text
    rfl
  obtain ⟨hcut, hstray⟩ := cut_text_blames_block h
  rw [hlength] at hstray
  exact ⟨h, (hcut 5).2 _ hbranch, (hcut 6).2 _ hloop,
    hstray (.inr hends) "end" (by decide) "end" "end".toList rfl rfl⟩

end RobotBench
