import RobotBench.Proofs.Text.Lines
import RobotBench.Text.Words

/-!
# Words of a line

A line that begins with a character other than a blank or `#` has words
(`split_gap_ne_nil`). Any word can be written between single quotes: every character stands
for itself, and a single quote is written by closing the quotes, escaping it, and opening
them again. `words_single_quoted` says that a line of such words splits into these words.
-/

namespace RobotBench.Text

/-! ## Lines with words -/

/-- Separators of words are blank. -/
theorem separator_of_blank {c : Char} (h : isBlank c = false) : isSeparator c = false := by
  cases hc : isSeparator c with
  | false => rfl
  | true =>
      simp only [isSeparator, decide_eq_true_eq] at hc
      rcases hc with rfl | rfl | rfl <;> exact absurd h (by decide)

theorem extend_ne_nil (cs : List Char) (words : List (List Char)) : extend cs words ≠ [] := by
  cases words <;> simp [extend]

/-- Inside a word, what is left of the line begins with what is left of the word. -/
theorem split_ne_nil {mode : WordMode} {cs : List Char} (hgap : mode ≠ .gap)
    (hcomment : mode ≠ .comment) : splitFrom mode cs ≠ some [] := by
  fun_induction splitFrom mode cs <;>
    simp_all [Option.map_eq_some_iff, extend_ne_nil]

/-- Outside words, a character that separates none and begins no comment begins a word. -/
theorem split_gap_ne_nil {c : Char} {rest : List Char} (hseparator : isSeparator c = false)
    (hcomment : c ≠ '#') (hbreak : '\n' ∉ rest) : splitFrom .gap (c :: rest) ≠ some [] := by
  have hsingle : splitFrom .single rest ≠ some [] := split_ne_nil (by decide) (by decide)
  have hdouble : splitFrom .double rest ≠ some [] := split_ne_nil (by decide) (by decide)
  by_cases hescape : c = '\\'
  · subst hescape
    cases rest with
    | nil => simp [splitFrom]
    | cons d rest =>
        have hd : d ≠ '\n' := fun hd => hbreak (by simp [hd])
        simp [splitFrom, Option.map_eq_some_iff, extend_ne_nil]
  · rw [splitFrom]
    · simp only [hseparator, hcomment, Bool.false_eq_true, if_false]
      split_ifs
      · exact hsingle
      · exact hdouble
      · simp [Option.map_eq_some_iff, extend_ne_nil]
    -- The equation that was used asks that no backslash comes first.
    all_goals
      intros
      contradiction

/-! ## Single quotes -/

/-- A character as it is written inside single quotes. -/
def quoteChar (c : Char) : List Char := if c = '\'' then ['\'', '\\', '\'', '\''] else [c]

/-- A word between single quotes. -/
def singleQuoted (word : List Char) : List Char := '\'' :: (word.flatMap quoteChar ++ ['\''])

/-- Words between single quotes, with a space between any two. -/
def quotedWords : List (List Char) → List Char
  | [] => []
  | [word] => singleQuoted word
  | word :: next :: more => singleQuoted word ++ ' ' :: quotedWords (next :: more)

/-- What stands between single quotes goes in front of the word that follows them. -/
theorem split_single {rest : List Char} {tail : List Char} {more : List (List Char)}
    (h : splitFrom .plain rest = some (tail :: more)) (word : List Char) :
    splitFrom .single (word.flatMap quoteChar ++ '\'' :: rest) =
      some ((word ++ tail) :: more) := by
  induction word with
  | nil => simpa [splitFrom] using h
  | cons c word ih =>
      by_cases hc : c = '\''
      · subst hc
        simp [quoteChar, splitFrom, ih, extend]
      · simp [quoteChar, hc, splitFrom, ih, extend]

/-- A quoted word is the first one of what follows in its line. -/
theorem split_quoted {rest : List Char} {tail : List Char} {more : List (List Char)}
    (h : splitFrom .plain rest = some (tail :: more)) (word : List Char) :
    splitFrom .gap (singleQuoted word ++ rest) = some ((word ++ tail) :: more) := by
  have hword := split_single h word
  simpa [singleQuoted, splitFrom] using hword

/-- Quoted words split into the words. -/
theorem split_quoted_words (words : List (List Char)) :
    splitFrom .gap (quotedWords words) = some words := by
  induction words with
  | nil => rfl
  | cons word more ih =>
      cases more with
      | nil =>
          have hend : splitFrom .plain [] = some [[]] := rfl
          simpa [quotedWords] using split_quoted hend word
      | cons next more =>
          have hspace : splitFrom .plain (' ' :: quotedWords (next :: more)) =
              some ([] :: next :: more) := by
            simp [splitFrom, isSeparator, ih]
          simpa [quotedWords] using split_quoted hspace word

/-- A line of quoted words splits into the words. -/
theorem words_single_quoted (words : List String) :
    words? (quotedWords (words.map String.toList)) = some words := by
  rw [words?, split_quoted_words, Option.map_some, List.map_map]
  simp [Function.comp_def]

/-! ## Ends and line feeds -/

/-- A line of quoted words begins and ends with a quote. -/
theorem quoted_words_ends {words : List (List Char)} (h : words ≠ []) :
    ∃ inner, quotedWords words = '\'' :: inner ∧
      (quotedWords words).getLast? = some '\'' := by
  induction words with
  | nil => exact absurd rfl h
  | cons word more ih =>
      cases more with
      | nil =>
          refine ⟨_, rfl, ?_⟩
          simp [quotedWords, singleQuoted, List.getLast?_cons]
      | cons next more =>
          obtain ⟨inner, -, hlast⟩ := ih (List.cons_ne_nil _ _)
          refine ⟨_, rfl, ?_⟩
          rw [quotedWords, List.getLast?_append, List.getLast?_cons, hlast]
          rfl

/-- Quoting brings no line feeds into a word. -/
theorem newline_not_mem_single_quoted {word : List Char} (h : '\n' ∉ word) :
    '\n' ∉ singleQuoted word := by
  intro hmem
  simp only [singleQuoted, List.mem_cons, List.mem_append, List.mem_flatMap,
    List.not_mem_nil, or_false] at hmem
  rcases hmem with hmem | ⟨c, hc, hmem⟩ | hmem
  · exact absurd hmem (by decide)
  · simp only [quoteChar] at hmem
    split at hmem
    · exact absurd hmem (by decide)
    · obtain rfl := List.mem_singleton.1 hmem
      exact h hc
  · exact absurd hmem (by decide)

/-- Quoting brings no line feeds into a line of words. -/
theorem newline_not_mem_quoted_words {words : List (List Char)}
    (h : ∀ word ∈ words, '\n' ∉ word) : '\n' ∉ quotedWords words := by
  induction words with
  | nil => exact List.not_mem_nil
  | cons word more ih =>
      have hword := newline_not_mem_single_quoted (h word List.mem_cons_self)
      cases more with
      | nil => exact hword
      | cons next more =>
          have hmore := ih fun other hother => h other (List.mem_cons_of_mem _ hother)
          simp only [quotedWords, List.mem_append, List.mem_cons, not_or]
          exact ⟨hword, by decide, hmore⟩

end RobotBench.Text
