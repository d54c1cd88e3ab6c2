import Mathlib.Data.List.Basic
import RobotBench.Proofs.Text.Words
import RobotBench.Script.TokenLine

/-!
# Lines that say something

A text has one token line for each of its lines that say something, numbered by where the
line stands: `token_lines_iff`. Only blank lines and comments say nothing
(`line_words_nil_iff`). Token lines that are written out with every word in single quotes
are the token lines of the text that this makes: `token_lines_written`.
-/

namespace RobotBench

/-! ## Token lines of a text -/

/-- The line as a token line, if it says something. -/
def TokenLine.ofLine? (number : Nat) (cs : List Char) : Option TokenLine :=
  match lineWords? cs with
  | some (head :: rest) => some ⟨number, head, rest⟩
  | _ => none

/-- The lines that say something, each numbered by where it stands. -/
def significantLines (number : Nat) (ls : List (List Char)) : List TokenLine :=
  (ls.zipIdx number).filterMap fun entry => TokenLine.ofLine? entry.2 entry.1

/-- The first line may say something; the others follow with the next number. -/
theorem significant_lines_cons (number : Nat) (cs : List Char) (more : List (List Char)) :
    significantLines number (cs :: more) =
      (TokenLine.ofLine? number cs).toList ++ significantLines (number + 1) more := by
  simp only [significantLines, List.zipIdx_cons, List.filterMap_cons]
  cases TokenLine.ofLine? number cs <;> rfl

/-- What is said on lines after others is numbered from where these end. -/
theorem significant_lines_append (number : Nat) (ls more : List (List Char)) :
    significantLines number (ls ++ more) =
      significantLines number ls ++ significantLines (number + ls.length) more := by
  rw [significantLines, List.zipIdx_append, List.filterMap_append]
  rfl

/-- Lines have token lines when all of them are readable, and then these are the lines that
say something. -/
theorem token_lines_iff {number : Nat} {ls : List (List Char)} {lines : List TokenLine} :
    tokenLines number ls = .ok lines ↔
      (∀ cs ∈ ls, lineWords? cs ≠ none) ∧ lines = significantLines number ls := by
  induction ls generalizing number lines with
  | nil => simp [tokenLines, significantLines, eq_comm]
  | cons cs more ih =>
      rw [tokenLines, significant_lines_cons, List.forall_mem_cons, TokenLine.ofLine?]
      cases hwords : lineWords? cs with
      | none => simp
      | some words =>
          cases hmore : tokenLines (number + 1) more with
          | error line =>
              have hunreadable : ¬ ∀ cs ∈ more, lineWords? cs ≠ none := by
                intro hall
                have hok : tokenLines (number + 1) more = .ok _ := ih.2 ⟨hall, rfl⟩
                rw [hmore] at hok
                cases hok
              simp only [Except.map, hunreadable, and_false, false_and, reduceCtorEq]
          | ok rest =>
              obtain ⟨hall, rfl⟩ := ih.1 hmore
              cases words with
              | nil => simpa [Except.map, eq_comm] using fun _ => hall
              | cons head tail => simpa [Except.map, eq_comm] using fun _ => hall

/-- A line that says something is found where its number says. -/
theorem mem_significant_lines {number : Nat} {ls : List (List Char)} {line : TokenLine}
    (h : line ∈ significantLines number ls) :
    ∃ index cs, ls[index]? = some cs ∧ lineWords? cs = some line.tokens ∧
      line.number = number + index := by
  induction ls generalizing number with
  | nil => exact absurd h List.not_mem_nil
  | cons cs more ih =>
      rw [significant_lines_cons, TokenLine.ofLine?] at h
      rcases List.mem_append.1 h with h | h
      · split at h
        · rename_i head rest hwords
          obtain rfl := List.mem_singleton.1 h
          exact ⟨0, cs, rfl, hwords, rfl⟩
        · exact absurd h List.not_mem_nil
      · obtain ⟨index, cs', hindex, hwords, hnumber⟩ := ih h
        exact ⟨index + 1, cs', hindex, hwords, by omega⟩

/-- The line that is blamed for an open quote is found where its number says. -/
theorem token_lines_error {number bad : Nat} {ls : List (List Char)}
    (h : tokenLines number ls = .error bad) :
    ∃ index cs, ls[index]? = some cs ∧ lineWords? cs = none ∧ bad = number + index := by
  induction ls generalizing number with
  | nil => cases h
  | cons cs more ih =>
      rw [tokenLines] at h
      split at h
      · rename_i hwords
        cases h
        exact ⟨0, cs, rfl, hwords, rfl⟩
      · cases hmore : tokenLines (number + 1) more with
        | ok lines =>
            rw [hmore] at h
            cases h
        | error other =>
            rw [hmore] at h
            cases h
            obtain ⟨index, cs', hindex, hwords, hnumber⟩ := ih hmore
            exact ⟨index + 1, cs', hindex, hwords, by omega⟩

/-- The lines that say something are numbered in increasing order. -/
theorem significant_lines_increase (number : Nat) (ls : List (List Char)) :
    ((significantLines number ls).map TokenLine.number).Pairwise (· < ·) := by
  induction ls generalizing number with
  | nil => exact .nil
  | cons cs more ih =>
      rw [significant_lines_cons, List.map_append, List.pairwise_append]
      refine ⟨?_, ih _, ?_⟩
      · cases TokenLine.ofLine? number cs <;> simp
      · intro first hfirst later hlater
        obtain ⟨line, hline, rfl⟩ := List.mem_map.1 hlater
        obtain ⟨index, -, -, -, hnumber⟩ := mem_significant_lines hline
        have hfirst : first = number := by
          rw [TokenLine.ofLine?] at hfirst
          split at hfirst
          · simpa using hfirst
          · simp at hfirst
        omega

/-! ## Lines that say nothing -/

/-- The line is blank or a comment. -/
def IsSilent (cs : List Char) : Prop :=
  Text.trim cs = [] ∨ (Text.trim cs).head? = some '#'

/-- Nothing is said on a line without line feeds exactly when it is blank or a comment. -/
theorem line_words_nil_iff {cs : List Char} (h : '\n' ∉ cs) :
    lineWords? cs = some [] ↔ IsSilent cs := by
  unfold lineWords? IsSilent
  split
  · simp [*]
  · simp [*]
  · rename_i hblank hcomment
    obtain ⟨c, rest, htrim⟩ : ∃ c rest, Text.trim cs = c :: rest :=
      List.exists_cons_of_ne_nil hblank
    have hc : c ≠ '#' := fun hc => hcomment rest (hc ▸ htrim)
    have hbreak : '\n' ∉ rest := fun hmem =>
      h (Text.trim_subset cs (htrim ▸ List.mem_cons_of_mem _ hmem))
    have hsplit : Text.splitFrom .gap (c :: rest) ≠ some [] :=
      Text.split_gap_ne_nil (Text.separator_of_blank (Text.head_trim_blank htrim)) hc hbreak
    simp [Text.words?, htrim, hsplit, hc]

/-! ## Token lines written out -/

/-- The words of the line, each in single quotes. -/
def TokenLine.quoted (line : TokenLine) : List Char :=
  Text.quotedWords (line.tokens.map String.toList)

/-- The lines as a text, every word in single quotes. -/
def TokenLine.writeAll (lines : List TokenLine) : String :=
  String.ofList (lines.flatMap fun line => line.quoted ++ ['\n'])

/-- No word of the list holds a line feed. -/
def WordsOneLined (words : List String) : Prop := ∀ word ∈ words, '\n' ∉ word.toList

/-- No word of the lines holds a line feed. -/
def OneLined (lines : List TokenLine) : Prop := ∀ line ∈ lines, WordsOneLined line.tokens

/-- The words of a quoted line are the words of the line. -/
theorem TokenLine.words_quoted (line : TokenLine) :
    lineWords? line.quoted = some line.tokens := by
  obtain ⟨inner, hquoted, hlast⟩ : ∃ inner, line.quoted = '\'' :: inner ∧
      line.quoted.getLast? = some '\'' :=
    Text.quoted_words_ends (by simp [TokenLine.tokens])
  have htrim : Text.trim line.quoted = line.quoted := by
    rw [hquoted] at hlast ⊢
    exact Text.trim_of_ends (by decide) (by decide) hlast
  have hwords : Text.words? line.quoted = some line.tokens := Text.words_single_quoted _
  rw [lineWords?, htrim, hquoted]
  rw [hquoted] at hwords
  exact hwords

/-- Token lines that count up from a number are the token lines of the text in which they
are written out. -/
theorem token_lines_written {number : Nat} {lines : List TokenLine}
    (hnumbers : lines.map TokenLine.number = List.range' number lines.length)
    (hlines : OneLined lines) :
    tokenLines number (Text.lines (TokenLine.writeAll lines).toList) = .ok lines := by
  rw [TokenLine.writeAll, String.toList_ofList]
  induction lines generalizing number with
  | nil => rfl
  | cons line more ih =>
      obtain ⟨hline, hmore⟩ := List.forall_mem_cons.1 hlines
      rw [List.map_cons, List.length_cons, List.range'_succ, List.cons.injEq] at hnumbers
      obtain ⟨rfl, hnumbers⟩ := hnumbers
      have hbreak : '\n' ∉ line.quoted := by
        refine Text.newline_not_mem_quoted_words fun word hword => ?_
        obtain ⟨token, htoken, rfl⟩ := List.mem_map.1 hword
        exact hline token htoken
      obtain ⟨-, -, hlast⟩ : ∃ inner, line.quoted = '\'' :: inner ∧
          line.quoted.getLast? = some '\'' :=
        Text.quoted_words_ends (by simp [TokenLine.tokens])
      have hreturn : line.quoted.getLast? ≠ some '\r' := by
        rw [hlast]
        decide
      rw [List.flatMap_cons, List.append_assoc, List.singleton_append,
        Text.lines_append_break hbreak hreturn, tokenLines, line.words_quoted]
      simp only [ih hnumbers hmore, Except.map, TokenLine.tokens]

end RobotBench
