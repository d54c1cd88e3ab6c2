import Mathlib.Data.List.Forall2
import RobotBench.Proofs.Fallible
import RobotBench.Script.Parser

/-!
# The line of a statement

Which words make the line of a statement, said without the reader: `Statement.Heading`
takes an operand to be spelled by every word that reads as it, and leaves nothing else of
the line open. `TokenLine.role_iff` says that the reader finds a role in a line exactly
when the line is made of the words of that role.
-/

namespace RobotBench

/-- The words that begin a line other than a call. -/
def keywords : List String :=
  ["end", "else", "let", "def", "repeat", "loop", "while", "if", "break", "return"]

/-- The word reads as the operand. -/
def Atom.SpelledBy (a : Atom) (word : String) : Prop := Atom.ofWord word = a

/-- The word has the form `KEY=VALUE`, with a name before the sign and something after it. -/
def IsKeyed (word : String) : Prop :=
  ∃ key value, isIdentifier key ∧ value ≠ "" ∧ word = key ++ "=" ++ value

/-- The word reads as the argument: `KEY=VALUE` when there is a key, and a word of another
form when there is none. -/
def Argument.SpelledBy (a : Argument) (word : String) : Prop :=
  match a.key with
  | some key => isIdentifier key ∧
      ∃ value, value ≠ "" ∧ word = key ++ "=" ++ value ∧ a.value.SpelledBy value
  | none => ¬ IsKeyed word ∧ a.value.SpelledBy word

/-- The words are the name of the call and its arguments in order. -/
def Call.SpelledBy (c : Call) (words : List String) : Prop :=
  isIdentifier c.name ∧ ∃ arguments, words = c.name :: arguments ∧
    List.Forall₂ Argument.SpelledBy c.arguments arguments

/-- The words are the condition. -/
def Condition.SpelledBy : Condition → List String → Prop
  | .truthy operand, words => ∃ word, words = [word] ∧ operand.SpelledBy word
  | .falsy operand, words => ∃ word, words = ["not", word] ∧ operand.SpelledBy word
  | .compare left comparison right, words => ∃ first last,
      words = [first, comparison.symbol, last] ∧ left.SpelledBy first ∧ right.SpelledBy last

/-- The words make the line of the statement; for a statement with blocks, the line that
opens the first of them. -/
def Statement.Heading : Statement → List String → Prop
  | .assign name (.atom operand), words => isIdentifier name ∧
      ∃ word, words = ["let", name, "=", word] ∧ operand.SpelledBy word
  | .assign name (.call c), words => isIdentifier name ∧ c.arguments ≠ [] ∧
      ∃ right, words = "let" :: name :: "=" :: right ∧ c.SpelledBy right
  | .call c, words => c.name ∉ keywords ∧ c.SpelledBy words
  | .define name _, words => isIdentifier name ∧ words = ["def", name]
  | .repeated count _, words => ∃ word, words = ["repeat", word] ∧ count.SpelledBy word
  | .loop _, words => words = ["loop"]
  | .whilst condition _, words => ∃ right, words = "while" :: right ∧ condition.SpelledBy right
  | .branch condition _ _, words => ∃ right, words = "if" :: right ∧ condition.SpelledBy right
  | .leave, words => words = ["break"]
  | .answer none, words => words = ["return"]
  | .answer (some operand), words => ∃ word, words = ["return", word] ∧ operand.SpelledBy word

/-- The statement has no blocks. -/
def Statement.IsPlain : Statement → Prop
  | .assign _ _ | .call _ | .leave | .answer _ => True
  | _ => False

/-- The block is the first one of its statement. -/
def Opener.IsFirst : Opener → Prop
  | .otherwise _ _ => False
  | _ => True

/-- The words of a line do not depend on the body of the block that it opens. -/
theorem Opener.heading_close {o : Opener} {words : List String} (body other : List Node) :
    (o.close body).Heading words ↔ (o.close other).Heading words := by
  cases o <;> rfl

/-- The words say the role: they make the line of its statement or of its block, or are the
keyword of the role and what it is followed by. -/
def LineRole.SaidBy : LineRole → List String → Prop
  | .simple (.assign name value), words => (Statement.assign name value).Heading words
  | .simple (.call c), words => (Statement.call c).Heading words
  | .simple _, _ => False
  | .opening o, words => o.IsFirst ∧ (o.close []).Heading words
  | .leave, words => words = ["break"]
  | .answer rest, words => words = "return" :: rest
  | .finish, words => words = ["end"]
  | .otherwise, words => words = ["else"]

/-! ## Names and arguments -/

/-- No part of a name is an equals sign or a line feed. -/
theorem name_part_ne {c : Char} (h : isNamePart c) : c ≠ '=' ∧ c ≠ '\n' := by
  constructor <;> rintro rfl <;> exact absurd h (by decide)

theorem name_start_part {c : Char} (h : isNameStart c) : isNamePart c := by
  simp only [isNameStart, isNamePart, Char.isAlphanum, Bool.or_eq_true] at h ⊢
  rcases h with h | h
  · exact Or.inl (Or.inl h)
  · exact Or.inr h

/-- All characters of a name are parts of a name. -/
theorem identifier_chars {cs : List Char} (h : isIdentifierChars cs) :
    ∀ c ∈ cs, isNamePart c := by
  cases cs with
  | nil => exact absurd h (by decide)
  | cons c rest =>
      simp only [isIdentifierChars, Bool.and_eq_true, List.all_eq_true] at h
      intro d hd
      rcases List.mem_cons.1 hd with rfl | hd
      · exact name_start_part h.1
      · exact h.2 d hd

theorem keyed_chars (key value : String) :
    (key ++ "=" ++ value).toList = key.toList ++ '=' :: value.toList := by
  simp

/-- A word `KEY=VALUE` reads as an argument with that key. -/
theorem Argument.of_word_keyed {key value : String} (hkey : isIdentifier key)
    (hvalue : value ≠ "") :
    Argument.ofWord (key ++ "=" ++ value) = ⟨some key, Atom.ofWord value⟩ := by
  have hsign : ∀ c ∈ key.toList, decide (c ≠ '=') = true := fun c hc =>
    decide_eq_true (name_part_ne (identifier_chars hkey c hc)).1
  obtain ⟨c, rest, hrest⟩ : ∃ c rest, value.toList = c :: rest :=
    List.exists_cons_of_ne_nil (by simpa using hvalue)
  have htake : (key ++ "=" ++ value).toList.takeWhile (fun c => decide (c ≠ '=')) =
      key.toList := by
    rw [keyed_chars, List.takeWhile_append_of_pos hsign]
    simp
  have hdrop : (key ++ "=" ++ value).toList.dropWhile (fun c => decide (c ≠ '=')) =
      '=' :: c :: rest := by
    rw [keyed_chars, List.dropWhile_append_of_pos hsign, hrest]
    simp
  have hchars : isIdentifierChars key.toList := hkey
  simp only [Argument.ofWord, htake, hdrop]
  rw [if_pos hchars, ← hrest]
  simp

/-- A word of any other form reads as an argument without a key. -/
theorem Argument.of_word_plain {word : String} (h : ¬ IsKeyed word) :
    Argument.ofWord word = ⟨none, Atom.ofWord word⟩ := by
  simp only [Argument.ofWord]
  split
  · rename_i c value hdrop
    split
    · rename_i hkey
      refine absurd ?_ h
      refine ⟨String.ofList (word.toList.takeWhile fun c => decide (c ≠ '=')),
        String.ofList (c :: value), ?_, by simp, ?_⟩
      · simpa [isIdentifier] using hkey
      · rw [← String.toList_inj, keyed_chars, String.toList_ofList, String.toList_ofList,
          ← hdrop, List.takeWhile_append_dropWhile]
    · rfl
  · rfl

/-- A word reads as exactly the argument that it spells. -/
theorem Argument.of_word_iff {word : String} {a : Argument} :
    Argument.ofWord word = a ↔ a.SpelledBy word := by
  obtain ⟨key, operand⟩ := a
  cases key with
  | none =>
      simp only [Argument.SpelledBy, Atom.SpelledBy]
      constructor
      · intro h
        by_cases hk : IsKeyed word
        · obtain ⟨key, value, hkey, hvalue, rfl⟩ := hk
          rw [Argument.of_word_keyed hkey hvalue] at h
          cases h
        · rw [Argument.of_word_plain hk] at h
          cases h
          exact ⟨hk, rfl⟩
      · rintro ⟨hk, rfl⟩
        exact Argument.of_word_plain hk
  | some key =>
      simp only [Argument.SpelledBy, Atom.SpelledBy]
      constructor
      · intro h
        by_cases hk : IsKeyed word
        · obtain ⟨other, value, hkey, hvalue, rfl⟩ := hk
          rw [Argument.of_word_keyed hkey hvalue] at h
          cases h
          exact ⟨hkey, value, hvalue, rfl, rfl⟩
        · rw [Argument.of_word_plain hk] at h
          cases h
      · rintro ⟨hkey, value, hvalue, rfl, rfl⟩
        exact Argument.of_word_keyed hkey hvalue

/-- Words read as exactly the arguments that they spell one by one. -/
theorem Argument.map_of_word_iff {words : List String} {arguments : List Argument} :
    words.map Argument.ofWord = arguments ↔
      List.Forall₂ Argument.SpelledBy arguments words := by
  have hspelled : Argument.SpelledBy = fun a word => a = Argument.ofWord word := by
    funext a word
    exact propext (Argument.of_word_iff.symm.trans eq_comm)
  rw [hspelled, ← List.forall₂_map_right_iff (f := Argument.ofWord), List.forall₂_eq_eq_eq]
  exact eq_comm

/-! ## Readers -/

/-- A sign reads as the comparison that it stands for. -/
theorem Comparison.of_symbol_iff {word : String} {c : Comparison} :
    Comparison.ofSymbol? word = some c ↔ word = c.symbol := by
  constructor
  · intro h
    have hfound := List.find?_some h
    simpa [eq_comm] using hfound
  · rintro rfl
    cases c <;> decide

/-- Words read as exactly the call that they spell. -/
theorem read_call_iff {name : String} {words : List String} {c : Call} :
    readCall name words = .ok c ↔ c.SpelledBy (name :: words) := by
  obtain ⟨operation, arguments⟩ := c
  simp only [readCall, Call.SpelledBy]
  split
  · rename_i hname
    rw [Except.ok.injEq, Call.mk.injEq, Argument.map_of_word_iff]
    constructor
    · rintro ⟨rfl, hwords⟩
      exact ⟨hname, words, rfl, hwords⟩
    · rintro ⟨-, rest, hrest, hwords⟩
      cases hrest
      exact ⟨rfl, hwords⟩
  · rename_i hname
    constructor
    · intro h
      cases h
    · rintro ⟨hoperation, rest, hrest, -⟩
      cases hrest
      exact absurd hoperation hname

/-- Words read as exactly the condition that they spell. -/
theorem read_condition_iff {words : List String} {c : Condition} :
    readCondition words = .ok c ↔ c.SpelledBy words := by
  constructor
  · intro h
    unfold readCondition at h
    split at h
    · cases h
      exact ⟨_, rfl, rfl⟩
    · split at h
      · rename_i hnot
        cases h
        exact ⟨_, by rw [hnot], rfl⟩
      · cases h
    · split at h
      · rename_i comparison hsign
        cases h
        exact ⟨_, _, by rw [Comparison.of_symbol_iff.1 hsign], rfl, rfl⟩
      · cases h
    · cases h
  · intro h
    cases c with
    | truthy operand =>
        obtain ⟨word, rfl, rfl⟩ := h
        rfl
    | falsy operand =>
        obtain ⟨word, rfl, rfl⟩ := h
        rfl
    | compare left comparison right =>
        obtain ⟨first, last, rfl, rfl, rfl⟩ := h
        simp only [readCondition, Comparison.of_symbol_iff.2 rfl]

/-- Words after `let` read as exactly the assignment whose line they complete. -/
theorem read_assign_iff {words : List String} {s : Statement} :
    readAssign words = .ok s ↔
      (∃ name value, s = .assign name value) ∧ s.Heading ("let" :: words) := by
  constructor
  · intro h
    unfold readAssign at h
    split at h
    · rename_i name equals first more
      split_ifs at h with hequals hname
      rw [not_not] at hequals
      have hname : isIdentifier name := by simpa using hname
      subst hequals
      split at h
      · cases h
        exact ⟨⟨_, _, rfl⟩, hname, _, rfl, rfl⟩
      · rename_i hmore
        obtain ⟨c, hc, rfl⟩ := map_ok_iff.1 h
        have hspelled := read_call_iff.1 hc
        refine ⟨⟨_, _, rfl⟩, hname, ?_, _, rfl, hspelled⟩
        obtain ⟨-, arguments, hwords, harguments⟩ := hspelled
        cases hwords
        intro hnil
        rw [hnil] at harguments
        exact hmore (List.forall₂_nil_left_iff.1 harguments)
    · cases h
  · rintro ⟨⟨name, value, rfl⟩, h⟩
    cases value with
    | atom operand =>
        obtain ⟨hname, word, hwords, rfl⟩ := h
        cases hwords
        simp [readAssign, hname]
    | call c =>
        obtain ⟨hname, hsome, right, hwords, hc⟩ := h
        cases hwords
        obtain ⟨first, rest, hfirst⟩ : ∃ first rest, c.arguments = first :: rest :=
          List.exists_cons_of_ne_nil hsome
        obtain ⟨hoperation, arguments, rfl, harguments⟩ := hc
        rw [hfirst] at harguments
        obtain ⟨word, more, hword, hmore, rfl⟩ := List.forall₂_cons_left_iff.1 harguments
        have hread : readCall c.name (word :: more) = .ok c :=
          read_call_iff.2 ⟨hoperation, _, rfl, by rw [hfirst]; exact .cons hword hmore⟩
        simp [readAssign, hname, hread, Except.map]

theorem expect_arity_zero_iff {keyword : String} {words : List String} :
    expectArity keyword words 0 = .ok () ↔ words = [] := by
  simp only [expectArity, List.length_eq_zero_iff]
  split <;> simp [*]

/-- Words after `def` and `repeat` read as exactly the block whose line they complete. -/
theorem read_define_iff {words : List String} {o : Opener} :
    readDefine words = .ok o ↔
      ∃ name, o = .define name ∧ isIdentifier name ∧ words = [name] := by
  unfold readDefine
  split
  · rename_i name
    split
    · rename_i hname
      constructor
      · intro h
        cases h
        exact ⟨name, rfl, hname, rfl⟩
      · rintro ⟨other, rfl, -, hwords⟩
        cases hwords
        rfl
    · rename_i hname
      constructor
      · intro h
        cases h
      · rintro ⟨other, -, hother, hwords⟩
        cases hwords
        exact absurd hother hname
  · rename_i hwords
    constructor
    · intro h
      cases h
    · rintro ⟨name, -, -, rfl⟩
      exact absurd rfl (hwords name)

theorem read_repeated_iff {words : List String} {o : Opener} :
    readRepeated words = .ok o ↔
      ∃ count word, o = .repeated count ∧ words = [word] ∧ count.SpelledBy word := by
  unfold readRepeated
  split
  · rename_i word
    constructor
    · intro h
      cases h
      exact ⟨_, word, rfl, rfl, rfl⟩
    · rintro ⟨count, other, rfl, hwords, rfl⟩
      cases hwords
      rfl
  · rename_i hwords
    constructor
    · intro h
      cases h
    · rintro ⟨count, word, -, rfl, -⟩
      exact absurd rfl (hwords word)

/-- A line whose words say a role has that role. -/
theorem TokenLine.role_of_said {line : TokenLine} {role : LineRole}
    (h : role.SaidBy line.tokens) : line.role = .ok role := by
  obtain ⟨number, head, rest⟩ := line
  -- once the first word is a keyword, the chain of tests computes and `show` finds the reader
  cases role with
  | simple s =>
      cases s with
      | assign name value =>
          have hhead : head = "let" := by
            cases value with
            | atom _ =>
                obtain ⟨-, _, hwords, -⟩ := h
                exact (List.cons.inj hwords).1
            | call _ =>
                obtain ⟨-, -, _, hwords, -⟩ := h
                exact (List.cons.inj hwords).1
          subst hhead
          show (readAssign rest).map LineRole.simple = _
          rw [read_assign_iff.2 ⟨⟨_, _, rfl⟩, h⟩]
          rfl
      | call c =>
          obtain ⟨hkeyword, hc⟩ := h
          have hread : readCall head rest = .ok c := read_call_iff.2 hc
          obtain ⟨-, _, hwords, -⟩ := hc
          obtain ⟨rfl, -⟩ := List.cons.inj hwords
          simp only [keywords, List.mem_cons, List.not_mem_nil, or_false, not_or] at hkeyword
          simp [TokenLine.role, hkeyword, hread, Except.map]
      | _ => exact False.elim h
  | opening o =>
      obtain ⟨hfirst, h⟩ := h
      cases o with
      | define name =>
          obtain ⟨hname, hwords⟩ := h
          obtain ⟨rfl, rfl⟩ := List.cons.inj hwords
          show (readDefine [name]).map LineRole.opening = _
          rw [read_define_iff.2 ⟨name, rfl, hname, rfl⟩]
          rfl
      | repeated count =>
          obtain ⟨word, hwords, hword⟩ := h
          obtain ⟨rfl, rfl⟩ := List.cons.inj hwords
          show (readRepeated [word]).map LineRole.opening = _
          rw [read_repeated_iff.2 ⟨count, word, rfl, rfl, hword⟩]
          rfl
      | loop =>
          obtain ⟨rfl, rfl⟩ := List.cons.inj h
          rfl
      | whilst condition =>
          obtain ⟨right, hwords, hcondition⟩ := h
          obtain ⟨rfl, rfl⟩ := List.cons.inj hwords
          show (readCondition rest).map (fun c => LineRole.opening (.whilst c)) = _
          rw [read_condition_iff.2 hcondition]
          rfl
      | branch condition =>
          obtain ⟨right, hwords, hcondition⟩ := h
          obtain ⟨rfl, rfl⟩ := List.cons.inj hwords
          show (readCondition rest).map (fun c => LineRole.opening (.branch c)) = _
          rw [read_condition_iff.2 hcondition]
          rfl
      | otherwise => exact False.elim hfirst
  | leave | finish | otherwise =>
      obtain ⟨rfl, rfl⟩ := List.cons.inj h
      rfl
  | answer words =>
      obtain ⟨rfl, rfl⟩ := List.cons.inj h
      rfl

/-- The words of a line say the role that the line has. -/
theorem TokenLine.said_of_role {line : TokenLine} {role : LineRole}
    (h : line.role = .ok role) : role.SaidBy line.tokens := by
  obtain ⟨number, head, rest⟩ := line
  simp only [TokenLine.role] at h
  -- the keywords are ruled out one by one, in the order in which the reader tries them;
  -- splitting the whole chain at once simplifies its tail again and again
  obtain ⟨hend, h⟩ | ⟨hend, h⟩ := ite_eq_iff.1 h
  · obtain ⟨_, harity, rfl⟩ := map_ok_iff.1 h
    simp [LineRole.SaidBy, TokenLine.tokens, hend, expect_arity_zero_iff.1 harity]
  obtain ⟨helse, h⟩ | ⟨helse, h⟩ := ite_eq_iff.1 h
  · obtain ⟨_, harity, rfl⟩ := map_ok_iff.1 h
    simp [LineRole.SaidBy, TokenLine.tokens, helse, expect_arity_zero_iff.1 harity]
  obtain ⟨hlet, h⟩ | ⟨hlet, h⟩ := ite_eq_iff.1 h
  · obtain ⟨s, hs, rfl⟩ := map_ok_iff.1 h
    obtain ⟨⟨name, value, rfl⟩, hheading⟩ := read_assign_iff.1 hs
    rw [TokenLine.tokens, hlet]
    exact hheading
  obtain ⟨hdef, h⟩ | ⟨hdef, h⟩ := ite_eq_iff.1 h
  · obtain ⟨o, ho, rfl⟩ := map_ok_iff.1 h
    obtain ⟨name, rfl, hname, rfl⟩ := read_define_iff.1 ho
    exact ⟨trivial, hname, by rw [TokenLine.tokens, hdef]⟩
  obtain ⟨hrepeat, h⟩ | ⟨hrepeat, h⟩ := ite_eq_iff.1 h
  · obtain ⟨o, ho, rfl⟩ := map_ok_iff.1 h
    obtain ⟨count, word, rfl, rfl, hword⟩ := read_repeated_iff.1 ho
    exact ⟨trivial, word, by rw [TokenLine.tokens, hrepeat], hword⟩
  obtain ⟨hloop, h⟩ | ⟨hloop, h⟩ := ite_eq_iff.1 h
  · obtain ⟨_, harity, rfl⟩ := map_ok_iff.1 h
    exact ⟨trivial, by
      rw [TokenLine.tokens, hloop, expect_arity_zero_iff.1 harity]
      rfl⟩
  obtain ⟨hwhile, h⟩ | ⟨hwhile, h⟩ := ite_eq_iff.1 h
  · obtain ⟨condition, hcondition, rfl⟩ := map_ok_iff.1 h
    exact ⟨trivial, rest, by rw [TokenLine.tokens, hwhile], read_condition_iff.1 hcondition⟩
  obtain ⟨hif, h⟩ | ⟨hif, h⟩ := ite_eq_iff.1 h
  · obtain ⟨condition, hcondition, rfl⟩ := map_ok_iff.1 h
    exact ⟨trivial, rest, by rw [TokenLine.tokens, hif], read_condition_iff.1 hcondition⟩
  obtain ⟨hbreak, h⟩ | ⟨hbreak, h⟩ := ite_eq_iff.1 h
  · obtain ⟨_, harity, rfl⟩ := map_ok_iff.1 h
    simp [LineRole.SaidBy, TokenLine.tokens, hbreak, expect_arity_zero_iff.1 harity]
  obtain ⟨hreturn, h⟩ | ⟨hreturn, h⟩ := ite_eq_iff.1 h
  · cases h
    simp [LineRole.SaidBy, TokenLine.tokens, hreturn]
  obtain ⟨c, hc, rfl⟩ := map_ok_iff.1 h
  have hspelled := read_call_iff.1 hc
  refine ⟨?_, hspelled⟩
  obtain ⟨-, _, hwords, -⟩ := hspelled
  obtain ⟨rfl, -⟩ := List.cons.inj hwords
  simp [keywords, *]

/-- A line has exactly the role that its words say. -/
theorem TokenLine.role_iff {line : TokenLine} {role : LineRole} :
    line.role = .ok role ↔ role.SaidBy line.tokens :=
  ⟨TokenLine.said_of_role, TokenLine.role_of_said⟩

/-- The words after `return` read as exactly the statement whose line they complete. -/
theorem read_answer_iff {words : List String} {s : Statement} :
    readAnswer words = .ok s ↔
      (∃ value, s = .answer value) ∧ s.Heading ("return" :: words) := by
  constructor
  · intro h
    unfold readAnswer at h
    split at h
    · cases h
      exact ⟨⟨none, rfl⟩, rfl⟩
    · rename_i word
      cases h
      exact ⟨⟨some _, rfl⟩, word, rfl, rfl⟩
    · cases h
  · rintro ⟨⟨value, rfl⟩, h⟩
    cases value with
    | none =>
        cases h
        rfl
    | some operand =>
        obtain ⟨word, hwords, rfl⟩ := h
        cases hwords
        rfl

end RobotBench
