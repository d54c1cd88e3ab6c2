import Mathlib.Data.List.DropRight
import RobotBench.Proofs.Script.TokenLines

/-!
# Lines are trimmed before they are split

A line is cut free of blanks and looked at for a `#` in front before it is split into words.
`Text.standing` says where the splitter stands after some characters, and what has been read
then is settled, whatever follows (`Text.split_append`). Blanks at the end are lost on it in
every place but one: behind a backslash that takes the next character. So trimming keeps the
words of a line unless such a backslash stands before the blanks at its end:
`trimming_keeps_words`.
-/

namespace RobotBench

namespace Text

/-! ## Where the splitter stands -/

/-- A backslash takes the character that follows it. -/
def WordMode.escapes : WordMode → Bool
  | .gap | .plain | .double => true
  | .single | .comment => false

/-- Where the splitter stands after a character that is read for itself. -/
def WordMode.after : WordMode → Char → WordMode
  | .gap, c =>
    if c = '\'' then .single else if c = '"' then .double else if isSeparator c then .gap
    else if c = '#' then .comment else .plain
  | .plain, c =>
    if c = '\'' then .single else if c = '"' then .double else if isSeparator c then .gap
    else .plain
  | .single, c => if c = '\'' then .plain else .single
  | .double, c => if c = '"' then .plain else .double
  | .comment, c => if c = '\n' then .gap else .comment

/-- Where the splitter stands after a character that a backslash has taken. -/
def WordMode.afterTaken (mode : WordMode) (c : Char) : WordMode :=
  if c = '\n' ∨ mode = .double then mode else .plain

/-- Where the splitter stands after some characters; nowhere when the last one is a backslash
that waits for the character it takes. -/
def standing : WordMode → List Char → Option WordMode
  | mode, [] => some mode
  | mode, c :: rest =>
    if c = '\\' ∧ mode.escapes then
      match rest with
      | [] => none
      | taken :: rest => standing (mode.afterTaken taken) rest
    else standing (mode.after c) rest

theorem standing_cons {mode : WordMode} {c : Char} (h : ¬ (c = '\\' ∧ mode.escapes))
    (rest : List Char) : standing mode (c :: rest) = standing (mode.after c) rest := by
  rw [standing.eq_def]
  exact if_neg h

theorem standing_taken {mode : WordMode} (h : mode.escapes) (c : Char) (rest : List Char) :
    standing mode ('\\' :: c :: rest) = standing (mode.afterTaken c) rest := by
  rw [standing.eq_def]
  exact if_pos ⟨rfl, h⟩

/-! ## What has been read is settled -/

/-- The words of a line as a function of the words of what is left of it, once some characters
have been read. -/
inductive Settles : (List (List Char) → List (List Char)) → Prop
  | nothing : Settles id
  | close {read : List (List Char) → List (List Char)} (h : Settles read) :
      Settles fun words => [] :: read words
  | put (cs : List Char) {read : List (List Char) → List (List Char)} (h : Settles read) :
      Settles fun words => extend cs (read words)

/-- If what is left is the end of a word, this is the end of the last word of the line. -/
theorem Settles.last_word {read : List (List Char) → List (List Char)} (h : Settles read) :
    ∃ words word, ∀ tail, read [tail] = words ++ [word ++ tail] := by
  induction h with
  | nothing => exact ⟨[], [], fun tail => rfl⟩
  | close _ ih =>
      obtain ⟨words, word, ih⟩ := ih
      exact ⟨[] :: words, word, fun tail => by simp [ih]⟩
  | put cs _ ih =>
      obtain ⟨words, word, ih⟩ := ih
      cases words with
      | nil => exact ⟨[], cs ++ word, fun tail => by simp [ih, extend]⟩
      | cons first words => exact ⟨(cs ++ first) :: words, word, fun tail => by simp [ih, extend]⟩

/-- A character that is read for itself ends a word, goes into one or does neither. -/
theorem split_after {mode : WordMode} {c : Char} (h : ¬ (c = '\\' ∧ mode.escapes)) :
    (∀ rest, splitFrom mode (c :: rest) = splitFrom (mode.after c) rest) ∨
    (∀ rest, splitFrom mode (c :: rest) = (splitFrom (mode.after c) rest).map ([] :: ·)) ∨
    ∃ cs, ∀ rest, splitFrom mode (c :: rest) = (splitFrom (mode.after c) rest).map (extend cs) := by
  cases mode with
  | gap =>
      have hc : c ≠ '\\' := fun hc => h ⟨hc, rfl⟩
      simp only [WordMode.after]
      split_ifs with hsingle hdouble hseparator hcomment
      · exact .inl fun rest => by simp [splitFrom, hsingle]
      · exact .inl fun rest => by simp [splitFrom, hdouble]
      · exact .inl fun rest => by simp [splitFrom, hc, hsingle, hdouble, hseparator]
      · exact .inl fun rest => by simp [splitFrom, hcomment, isSeparator]
      · exact .inr (.inr ⟨[c], fun rest => by
          simp [splitFrom, hc, hsingle, hdouble, hseparator, hcomment]⟩)
  | plain =>
      have hc : c ≠ '\\' := fun hc => h ⟨hc, rfl⟩
      simp only [WordMode.after]
      split_ifs with hsingle hdouble hseparator
      · exact .inl fun rest => by simp [splitFrom, hsingle]
      · exact .inl fun rest => by simp [splitFrom, hdouble]
      · exact .inr (.inl fun rest => by simp [splitFrom, hc, hsingle, hdouble, hseparator])
      · exact .inr (.inr ⟨[c], fun rest => by
          simp [splitFrom, hc, hsingle, hdouble, hseparator]⟩)
  | single =>
      simp only [WordMode.after]
      split_ifs with hsingle
      · exact .inl fun rest => by simp [splitFrom, hsingle]
      · exact .inr (.inr ⟨[c], fun rest => by simp [splitFrom, hsingle]⟩)
  | double =>
      have hc : c ≠ '\\' := fun hc => h ⟨hc, rfl⟩
      simp only [WordMode.after]
      split_ifs with hdouble
      · exact .inl fun rest => by simp [splitFrom, hdouble]
      · exact .inr (.inr ⟨[c], fun rest => by simp [splitFrom, hc, hdouble]⟩)
  | comment =>
      simp only [WordMode.after]
      split_ifs with hbreak
      · exact .inl fun rest => by simp [splitFrom, hbreak]
      · exact .inl fun rest => by simp [splitFrom, hbreak]

/-- A character that a backslash takes goes into a word, unless it is a line feed. -/
theorem split_taken {mode : WordMode} (h : mode.escapes) (c : Char) :
    (∀ rest, splitFrom mode ('\\' :: c :: rest) = splitFrom (mode.afterTaken c) rest) ∨
    ∃ cs, ∀ rest, splitFrom mode ('\\' :: c :: rest) =
      (splitFrom (mode.afterTaken c) rest).map (extend cs) := by
  by_cases hc : c = '\n'
  · subst hc
    refine .inl fun rest => ?_
    cases mode with
    | gap | plain | double => simp [splitFrom, WordMode.afterTaken]
    | single | comment => cases h
  · cases mode with
    | gap | plain => exact .inr ⟨[c], fun rest => by simp [splitFrom, WordMode.afterTaken, hc]⟩
    | double =>
        exact .inr ⟨if isEscapable c then [c] else ['\\', c], fun rest => by
          simp [splitFrom, WordMode.afterTaken, hc]⟩
    | single | comment => cases h

/-- What comes after some characters is split from where they leave the splitter. -/
theorem split_append {mode mode' : WordMode} {front : List Char}
    (h : standing mode front = some mode') :
    ∃ read, Settles read ∧
      ∀ rest, splitFrom mode (front ++ rest) = (splitFrom mode' rest).map read := by
  fun_induction standing mode front with
  | case1 mode =>
      cases h
      exact ⟨id, .nothing, fun rest => by simp⟩
  | case2 => cases h
  | case3 mode c hescape taken rest ih =>
      obtain ⟨rfl, hescapes⟩ := hescape
      obtain ⟨read, hread, hrest⟩ := ih h
      rcases split_taken hescapes taken with hsplit | ⟨cs, hsplit⟩
      · exact ⟨read, hread, fun more => (hsplit _).trans (hrest more)⟩
      · refine ⟨_, .put cs hread, fun more => ?_⟩
        calc splitFrom mode ('\\' :: taken :: (rest ++ more))
          _ = (splitFrom (mode.afterTaken taken) (rest ++ more)).map (extend cs) := hsplit _
          _ = (splitFrom mode' more).map fun words => extend cs (read words) := by
            rw [hrest, Option.map_map]
            rfl
  | case4 mode c rest hescape ih =>
      obtain ⟨read, hread, hrest⟩ := ih h
      rcases split_after hescape with hsplit | hsplit | ⟨cs, hsplit⟩
      · exact ⟨read, hread, fun more => (hsplit _).trans (hrest more)⟩
      · refine ⟨_, .close hread, fun more => ?_⟩
        calc splitFrom mode (c :: (rest ++ more))
          _ = (splitFrom (mode.after c) (rest ++ more)).map ([] :: ·) := hsplit _
          _ = (splitFrom mode' more).map fun words => [] :: read words := by
            rw [hrest, Option.map_map]
            rfl
      · refine ⟨_, .put cs hread, fun more => ?_⟩
        calc splitFrom mode (c :: (rest ++ more))
          _ = (splitFrom (mode.after c) (rest ++ more)).map (extend cs) := hsplit _
          _ = (splitFrom mode' more).map fun words => extend cs (read words) := by
            rw [hrest, Option.map_map]
            rfl

/-- The splitter stands nowhere behind a backslash that waits for a character. -/
theorem standing_none {mode : WordMode} {cs : List Char} (h : standing mode cs = none) :
    ∃ front mode', cs = front ++ ['\\'] ∧ standing mode front = some mode' ∧ mode'.escapes := by
  fun_induction standing mode cs with
  | case1 => cases h
  | case2 mode c hescape => exact ⟨[], mode, by rw [hescape.1]; rfl, rfl, hescape.2⟩
  | case3 mode c hescape taken rest ih =>
      obtain ⟨front, mode', rfl, hfront, hescapes⟩ := ih h
      obtain ⟨rfl, htakes⟩ := hescape
      exact ⟨'\\' :: taken :: front, mode', rfl, (standing_taken htakes taken front).trans hfront,
        hescapes⟩
  | case4 mode c rest hescape ih =>
      obtain ⟨front, mode', rfl, hfront, hescapes⟩ := ih h
      exact ⟨c :: front, mode', rfl, (standing_cons hescape front).trans hfront, hescapes⟩

/-! ## Blanks at the ends -/

/-- The blanks of the line are spaces and tabs. -/
def SpacedPlainly (cs : List Char) : Prop := ∀ c ∈ cs, isBlank c → c = ' ' ∨ c = '\t'

instance (cs : List Char) : Decidable (SpacedPlainly cs) := List.decidableBAll _ cs

/-- The line ends with blanks, and a backslash takes the first of them. -/
def TakesBlank (cs : List Char) : Prop :=
  ∃ front blank more, cs = front ++ '\\' :: blank :: more ∧ (∀ c ∈ blank :: more, isBlank c) ∧
    (standing .gap front = some .gap ∨ standing .gap front = some .plain)

/-- A text is what trimming leaves of it, between blanks. -/
theorem trim_parts (cs : List Char) : ∃ lead tail, cs = lead ++ (trim cs ++ tail) ∧
    (∀ c ∈ lead, isBlank c) ∧ ∀ c ∈ tail, isBlank c := by
  refine ⟨cs.takeWhile isBlank, (cs.dropWhile isBlank).rtakeWhile isBlank, ?_,
    fun c hc => List.mem_takeWhile_imp hc, fun c hc => List.mem_rtakeWhile_imp hc⟩
  calc cs
    _ = cs.takeWhile isBlank ++ cs.dropWhile isBlank := List.takeWhile_append_dropWhile.symm
    _ = cs.takeWhile isBlank ++ (trim cs ++ (cs.dropWhile isBlank).rtakeWhile isBlank) :=
      congrArg _ List.rdropWhile_append_rtakeWhile.symm

/-- Trimming stops at a backslash. -/
theorem trim_append_backslash (front : List Char) {blanks : List Char}
    (h : ∀ c ∈ blanks, isBlank c) :
    trim (front ++ '\\' :: blanks) = front.dropWhile isBlank ++ ['\\'] := by
  have hfront : (front ++ '\\' :: blanks).dropWhile isBlank =
      front.dropWhile isBlank ++ '\\' :: blanks := by
    rw [List.dropWhile_append]
    split
    · rename_i hempty
      rw [List.isEmpty_iff.1 hempty]
      rfl
    · rfl
  have hblanks : ∀ c ∈ blanks.reverse, isBlank c := fun c hc => h c (List.mem_reverse.1 hc)
  rw [trim, hfront, List.reverse_append, List.reverse_cons, List.append_assoc,
    List.dropWhile_append_of_pos hblanks, List.singleton_append,
    List.dropWhile_cons_of_neg (by decide)]
  simp

section

variable {blanks : List Char} (h : ∀ c ∈ blanks, c = ' ' ∨ c = '\t')
include h

/-- Spaces and tabs in front of a line are skipped. -/
theorem split_lead (rest : List Char) : splitFrom .gap (blanks ++ rest) = splitFrom .gap rest := by
  induction blanks with
  | nil => rfl
  | cons c more ih =>
      have hmore := ih fun d hd => h d (List.mem_cons_of_mem _ hd)
      rcases h c List.mem_cons_self with rfl | rfl
      · simpa [splitFrom, isSeparator] using hmore
      · simpa [splitFrom, isSeparator] using hmore

/-- Spaces and tabs in front leave the splitter where it stands. -/
theorem standing_lead (rest : List Char) : standing .gap (blanks ++ rest) = standing .gap rest := by
  induction blanks with
  | nil => rfl
  | cons c more ih =>
      have hmore := ih fun d hd => h d (List.mem_cons_of_mem _ hd)
      rcases h c List.mem_cons_self with rfl | rfl
      · exact (standing_cons (by decide) _).trans hmore
      · exact (standing_cons (by decide) _).trans hmore

/-- Spaces and tabs at the end of a line are lost on the splitter, wherever it stands. -/
theorem split_blanks (mode : WordMode) : splitFrom mode blanks = splitFrom mode [] := by
  cases mode with
  | gap => simpa using split_lead h []
  | plain =>
      cases blanks with
      | nil => rfl
      | cons c more =>
          have hmore := split_lead (fun d hd => h d (List.mem_cons_of_mem _ hd)) []
          rw [List.append_nil] at hmore
          rcases h c List.mem_cons_self with rfl | rfl
          · simp [splitFrom, isSeparator, hmore]
          · simp [splitFrom, isSeparator, hmore]
  | single | double | comment =>
      induction blanks with
      | nil => rfl
      | cons c more ih =>
          have hmore := ih fun d hd => h d (List.mem_cons_of_mem _ hd)
          rcases h c List.mem_cons_self with rfl | rfl
          · simp [splitFrom, hmore]
          · simp [splitFrom, hmore]

end

/-- A comment has no words. -/
theorem split_comment {rest : List Char} (h : '\n' ∉ rest) :
    splitFrom .comment rest = some [] := by
  induction rest with
  | nil => rfl
  | cons c rest ih =>
      have hc : c ≠ '\n' := fun hc => h (by simp [hc])
      rw [splitFrom, if_neg hc]
      exact ih fun hmem => h (List.mem_cons_of_mem _ hmem)

end Text

/-- Without line feeds, neither of the shortcuts changes what a trimmed line is split into. -/
theorem line_words_eq {cs : List Char} (h : '\n' ∉ cs) :
    lineWords? cs = Text.words? (Text.trim cs) := by
  unfold lineWords?
  split
  · rename_i htrim
    rw [htrim]
    rfl
  · rename_i rest htrim
    have hrest : '\n' ∉ rest := fun hmem =>
      h (Text.trim_subset cs (htrim ▸ List.mem_cons_of_mem _ hmem))
    have hsplit : Text.splitFrom .gap ('#' :: rest) = some [] := by
      simpa [Text.splitFrom, Text.isSeparator] using Text.split_comment hrest
    rw [htrim, Text.words?, hsplit]
    rfl
  · rfl

section

variable {cs : List Char} (h : Text.SpacedPlainly cs)
include h

theorem newline_not_mem_spaced : '\n' ∉ cs := fun hmem =>
  absurd (h '\n' hmem (by decide)) (by decide)

/-- Trimming a line keeps its words when no backslash takes one of the blanks at its end. -/
theorem line_words_kept (htaken : ¬ Text.TakesBlank cs) :
    lineWords? cs = Text.words? cs := by
  obtain ⟨lead, tail, hcs, hlead, htail⟩ := Text.trim_parts cs
  have hlead' : ∀ c ∈ lead, c = ' ' ∨ c = '\t' := fun c hc =>
    h c (hcs ▸ List.mem_append_left _ hc) (hlead c hc)
  have htail' : ∀ c ∈ tail, c = ' ' ∨ c = '\t' := fun c hc =>
    h c (hcs ▸ List.mem_append_right _ (List.mem_append_right _ hc)) (htail c hc)
  suffices hend : Text.splitFrom .gap (Text.trim cs ++ tail) = Text.splitFrom .gap (Text.trim cs) by
    have hcs' : Text.splitFrom .gap cs = Text.splitFrom .gap (Text.trim cs ++ tail) := by
      conv_lhs => rw [hcs]
      exact Text.split_lead hlead' _
    rw [line_words_eq (newline_not_mem_spaced h), Text.words?, Text.words?, hcs', hend]
  cases hstanding : Text.standing .gap (Text.trim cs) with
  | some mode =>
      obtain ⟨read, -, hread⟩ := Text.split_append hstanding
      have hsame := hread []
      rw [List.append_nil] at hsame
      rw [hread, hsame, Text.split_blanks htail']
  | none =>
      obtain ⟨front, mode, htrim, hfront, hescapes⟩ := Text.standing_none hstanding
      cases tail with
      | nil => rw [List.append_nil]
      | cons blank more =>
          obtain ⟨read, -, hread⟩ := Text.split_append hfront
          have htaken' (hmode : mode = .gap ∨ mode = .plain) : Text.TakesBlank cs := by
            refine ⟨lead ++ front, blank, more, ?_, htail, ?_⟩
            · simpa [htrim] using hcs
            · rw [Text.standing_lead hlead', hfront]
              simpa using hmode
          cases mode with
          | gap => exact absurd (htaken' (.inl rfl)) htaken
          | plain => exact absurd (htaken' (.inr rfl)) htaken
          | double =>
              -- the quotes stay open, whatever the backslash takes
              have hmore := Text.split_blanks
                (fun c hc => htail' c (List.mem_cons_of_mem _ hc)) .double
              have hopen : Text.splitFrom .double ('\\' :: blank :: more) = none := by
                simp [Text.splitFrom, hmore]
              rw [htrim, List.append_assoc, hread, hread]
              simp [hopen, Text.splitFrom]
          | single => cases hescapes
          | comment => cases hescapes

/-- Trimming a line in which a backslash takes a blank at the end leaves the backslash to stand
for itself. -/
theorem line_words_lost (htaken : Text.TakesBlank cs) :
    ∃ words word blank, (blank = ' ' ∨ blank = '\t') ∧
      Text.words? cs = some (words ++ [word ++ String.singleton blank]) ∧
      lineWords? cs = some (words ++ [word ++ "\\"]) := by
  obtain ⟨front, blank, more, rfl, hblanks, hstanding⟩ := htaken
  have hplain (c : Char) (hc : c ∈ blank :: more) : c = ' ' ∨ c = '\t' :=
    h c (by simp [List.mem_cons.1 hc]) (hblanks c hc)
  have hfront : front = front.takeWhile Text.isBlank ++ front.dropWhile Text.isBlank :=
    List.takeWhile_append_dropWhile.symm
  have hlead : ∀ c ∈ front.takeWhile Text.isBlank, c = ' ' ∨ c = '\t' := fun c hc =>
    h c (List.mem_append_left _ (List.takeWhile_subset _ hc)) (List.mem_takeWhile_imp hc)
  -- the words up to the backslash are the same, whether or not the line was trimmed
  have hsplit : ∃ mode, (mode = .gap ∨ mode = .plain) ∧
      Text.standing .gap (front.dropWhile Text.isBlank) = some mode := by
    rw [hfront, Text.standing_lead hlead] at hstanding
    rcases hstanding with hstanding | hstanding
    · exact ⟨.gap, .inl rfl, hstanding⟩
    · exact ⟨.plain, .inr rfl, hstanding⟩
  obtain ⟨mode, hmode, hstanding⟩ := hsplit
  obtain ⟨read, hsettles, hread⟩ := Text.split_append hstanding
  obtain ⟨words, word, hlast⟩ := hsettles.last_word
  have hbackslash : Text.splitFrom mode ['\\'] = some [['\\']] := by
    rcases hmode with rfl | rfl
    · rfl
    · rfl
  have hblank : Text.splitFrom mode ('\\' :: blank :: more) = some [[blank]] := by
    have hmore := Text.split_blanks (fun c hc => hplain c (List.mem_cons_of_mem _ hc)) .plain
    -- only a line feed would be dropped with its backslash
    have hbreak : blank ≠ '\n' := by
      rcases hplain blank List.mem_cons_self with rfl | rfl
      · decide
      · decide
    rcases hmode with rfl | rfl
    · simp [Text.splitFrom, hmore, Text.extend]
    · simp [Text.splitFrom, hmore, Text.extend]
  refine ⟨words.map String.ofList, String.ofList word, blank, hplain blank List.mem_cons_self,
    ?_, ?_⟩
  · rw [hfront, List.append_assoc, Text.words?, Text.split_lead hlead, hread, hblank,
      Option.map_some, Option.map_some, hlast, List.map_append]
    simp
  · rw [line_words_eq (newline_not_mem_spaced h), Text.trim_append_backslash front hblanks,
      Text.words?, hread, hbackslash, Option.map_some, Option.map_some, hlast, List.map_append]
    simp

end

/-- The words of a line whose blanks are spaces and tabs, and with them the token line it makes,
are those that it splits into as it stands: none if it splits into none, and the text is
unreadable for it if a quote in it is not closed. The exception are the lines with blanks at
their end of which a backslash takes the first one: this blank ends the last word, but it is
trimmed, and the backslash is left in its place. -/
theorem trimming_keeps_words {cs : List Char} (h : Text.SpacedPlainly cs) :
    (lineWords? cs = Text.words? cs ↔ ¬ Text.TakesBlank cs) ∧
    (¬ Text.TakesBlank cs → ∀ number more, tokenLines number (cs :: more) =
      match Text.words? cs with
      | none => .error number
      | some [] => tokenLines (number + 1) more
      | some (head :: rest) =>
        (tokenLines (number + 1) more).map (⟨number, head, rest⟩ :: ·)) ∧
    (Text.TakesBlank cs → ∃ words word blank, (blank = ' ' ∨ blank = '\t') ∧
      Text.words? cs = some (words ++ [word ++ String.singleton blank]) ∧
      lineWords? cs = some (words ++ [word ++ "\\"])) := by
  refine ⟨⟨fun hsame htaken => ?_, line_words_kept h⟩, fun htaken number more => ?_,
    line_words_lost h⟩
  · obtain ⟨words, word, blank, hblank, hwords, hlost⟩ := line_words_lost h htaken
    rw [hlost, hwords] at hsame
    have hlast : word ++ "\\" = word ++ String.singleton blank := by simpa using hsame
    obtain rfl : '\\' = blank := by simpa using congrArg String.toList hlast
    exact absurd hblank (by decide)
  · rw [tokenLines, line_words_kept h htaken]
    cases Text.words? cs with
    | none => rfl
    | some words =>
        cases words with
        | nil => cases tokenLines (number + 1) more <;> rfl
        | cons head rest => rfl

/-- Between blanks, a word of two quoted parts, and a comment with a backslash at its end. -/
theorem trimming_keeps_words_quoted :
    let cs := "\t say 'a # '\"b\\\"\"  # c \\ ".toList
    Text.SpacedPlainly cs ∧ tokenLines 3 [cs] = .ok [⟨3, "say", ["a # b\""]⟩] := by
  intro cs
  have hspaced : Text.SpacedPlainly cs := by decide
  have hwords : Text.words? cs = some ["say", "a # b\""] := by decide +kernel
  have hline : lineWords? cs = some ["say", "a # b\""] := by decide +kernel
  obtain ⟨hsame, hkept, -⟩ := trimming_keeps_words hspaced
  have htokens := hkept (hsame.1 (hline.trans hwords.symm)) 3 []
  rw [hwords] at htokens
  exact ⟨hspaced, htokens⟩

/-- A backslash takes the blank at the end of a line, but the word that the line is read with
ends with the backslash itself. -/
theorem taken_blank_is_trimmed :
    let cs := "print a\\ ".toList
    Text.SpacedPlainly cs ∧ Text.words? cs = some ["print", "a "] ∧
      tokenLines 1 [cs] = .ok [⟨1, "print", ["a\\"]⟩] := by
  exact ⟨by decide, rfl, rfl⟩

end RobotBench
