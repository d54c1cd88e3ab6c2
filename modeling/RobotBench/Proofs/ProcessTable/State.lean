import Mathlib.Data.List.TakeWhile
import RobotBench.ProcessTable
import RobotBench.Proofs.Text.Bytes

/-!
# States of processes

The state file of a process is its number, its name in parentheses, its state and more. The name
may be any text, with parentheses and words like a state in it: what counts is the first word
behind the last closing parenthesis (`state_text`), and where there is none the process does not
count as alive. `alive_by_state_word` says this of a table of processes.
-/

namespace RobotBench

namespace ProcessTable

/-! ## State files -/

/-- The content of the state file of a process number, if there is one. -/
def stateFile? (table : ProcessTable) (number : Int) : Option ByteArray :=
  (table.entries.find? fun entry => entry.directory = toString number).bind ProcessEntry.stat

/-- A state file as the kernel writes it. -/
def stateText (number : Int) (name state rest : String) : String :=
  toString number ++ " (" ++ name ++ ") " ++ state ++ " " ++ rest

/-- A word that can stand for a state. -/
structure IsStateWord (state : String) : Prop where
  some : state ≠ ""
  visible : ∀ c ∈ state.toList, Text.isBlank c = false
  no_paren : ')' ∉ state.toList

instance (state : String) : Decidable (IsStateWord state) :=
  decidable_of_iff (state ≠ "" ∧ (state.toList.all fun c => !Text.isBlank c) ∧
      ')' ∉ state.toList)
    ⟨fun ⟨hsome, hvisible, hparen⟩ => ⟨hsome, by simpa using hvisible, hparen⟩,
      fun h => ⟨h.some, by simpa using h.visible, h.no_paren⟩⟩

/-- Nothing but blanks stands behind the last closing parenthesis of the text. -/
def EndsAtParen (stat : String) : Prop :=
  ∃ front back, stat.toList = front ++ ')' :: back ∧ ∀ c ∈ back, Text.isBlank c

/-! ## Reading a state -/

/-- What stands behind a closing parenthesis is what follows the last one, if no other one is in
it. -/
theorem after_last_paren (front : List Char) {back : List Char} (h : ')' ∉ back) :
    afterLastParen? (front ++ ')' :: back) = some back := by
  have hback : ∀ c ∈ back.reverse, decide (c ≠ ')') = true := by
    intro c hc
    refine decide_eq_true ?_
    rintro rfl
    exact h (List.mem_reverse.1 hc)
  have hmem : ')' ∈ front ++ ')' :: back := by simp
  rw [afterLastParen?, if_pos hmem, List.reverse_append, List.reverse_cons, List.append_assoc,
    List.takeWhile_append_of_pos hback]
  simp

/-- A word that is followed by a blank is the first one behind any blanks. -/
theorem first_word {lead word : List Char} {blank : Char} (hlead : ∀ c ∈ lead, Text.isBlank c)
    (hsome : word ≠ []) (hword : ∀ c ∈ word, Text.isBlank c = false)
    (hblank : Text.isBlank blank) (rest : List Char) :
    Text.firstWord? (lead ++ (word ++ blank :: rest)) = some word := by
  obtain ⟨c, more, rfl⟩ := List.exists_cons_of_ne_nil hsome
  have hstart : (lead ++ (c :: more ++ blank :: rest)).dropWhile Text.isBlank =
      c :: more ++ blank :: rest := by
    rw [List.dropWhile_append_of_pos hlead, List.cons_append,
      List.dropWhile_cons_of_neg (by simp [hword c List.mem_cons_self])]
  have hend : (c :: more ++ blank :: rest).takeWhile (fun d => !Text.isBlank d) = c :: more := by
    rw [List.takeWhile_append_of_pos (by simpa using hword),
      List.takeWhile_cons_of_neg (by simp [hblank]), List.append_nil]
  rw [Text.firstWord?, hstart, hend]

/-- There is no word among blanks. -/
theorem first_word_none {cs : List Char} (h : ∀ c ∈ cs, Text.isBlank c) :
    Text.firstWord? cs = none := by
  have hdrop : cs.dropWhile Text.isBlank = [] := List.dropWhile_eq_nil_iff.2 h
  rw [Text.firstWord?, hdrop]
  rfl

/-- The state is read whatever the name of the process is. -/
theorem state_text {state rest : String} (hstate : IsStateWord state) (hrest : ')' ∉ rest.toList)
    (number : Int) (name : String) : state? (stateText number name state rest) = some state := by
  have htext : (stateText number name state rest).toList =
      ((toString number).toList ++ ' ' :: '(' :: name.toList) ++
        ')' :: ([' '] ++ (state.toList ++ ' ' :: rest.toList)) := by
    simp [stateText]
  have hback : ')' ∉ [' '] ++ (state.toList ++ ' ' :: rest.toList) := by
    simp [hstate.no_paren, hrest]
  have hword : Text.firstWord? ([' '] ++ (state.toList ++ ' ' :: rest.toList)) =
      some state.toList :=
    first_word (List.forall_mem_singleton.2 rfl) (by simpa using hstate.some) hstate.visible rfl
      rest.toList
  rw [state?, htext, after_last_paren _ hback, Option.bind_some, hword, Option.map_some,
    String.ofList_toList]

/-- There is no state without a closing parenthesis, and none behind the last one if there are
only blanks. -/
theorem state_none {stat : String} (h : ')' ∉ stat.toList ∨ EndsAtParen stat) :
    state? stat = none := by
  rcases h with hnone | ⟨front, back, htext, hblank⟩
  · rw [state?, afterLastParen?, if_neg hnone]
    rfl
  · have hback : ')' ∉ back := fun hmem => absurd (hblank _ hmem) (by decide)
    rw [state?, htext, after_last_paren front hback]
    simp [first_word_none hblank]

/-! ## Tables of processes -/

theorem text_of_string (s : String) : text? (some s.toUTF8) = some s := Text.read_string s

/-- Whether a process is alive is read from its state file. -/
theorem is_alive_eq (table : ProcessTable) (number : Int) :
    table.isAlive number = match text? (table.stateFile? number) with
      | none => false
      | some stat => isRunning (state? stat) := by
  unfold isAlive stateFile?
  cases table.entries.find? fun entry => entry.directory = toString number with
  | none => rfl
  | some entry => rfl

theorem running_iff (state : String) : isRunning (some state) ↔ state ≠ "Z" ∧ state ≠ "X" := by
  simp [isRunning]

/-- A process is alive by the word that stands for its state. Whatever its name, it is alive
exactly if this word is neither that of a zombie nor that of a dead process. It is not alive if
its state file is missing or no text, or if the text has no closing parenthesis or nothing but
blanks behind the last one. -/
theorem alive_by_state_word (table : ProcessTable) (number : Int) :
    (∀ name state rest, IsStateWord state → ')' ∉ rest.toList →
      table.stateFile? number = some (stateText number name state rest).toUTF8 →
        (table.isAlive number ↔ state ≠ "Z" ∧ state ≠ "X")) ∧
    (table.stateFile? number = none → table.isAlive number = false) ∧
    (∀ content, table.stateFile? number = some content → String.fromUTF8? content = none →
      table.isAlive number = false) ∧
    ∀ stat : String, table.stateFile? number = some stat.toUTF8 →
      ')' ∉ stat.toList ∨ EndsAtParen stat → table.isAlive number = false := by
  refine ⟨fun name state rest hstate hrest hfile => ?_, fun hfile => ?_,
    fun content hfile htext => ?_, fun stat hfile hstat => ?_⟩
  · rw [is_alive_eq, hfile, text_of_string]
    simp only [state_text hstate hrest]
    exact running_iff state
  · rw [is_alive_eq, hfile]
    rfl
  · rw [is_alive_eq, hfile, text?, Option.bind_some, htext]
  · rw [is_alive_eq, hfile, text_of_string]
    simp only [state_none hstat]
    rfl

/-- A sleeping process whose name looks like the end of a name and the state of a zombie. -/
theorem alive_by_state_word_forged :
    let name := "a) Z (b\n"
    let table : ProcessTable := ⟨[⟨"self", none, none⟩,
      ⟨"7", none, some (stateText 7 name "S" "1 (2").toUTF8⟩]⟩
    IsStateWord "S" ∧ ')' ∉ "1 (2".toList ∧
      table.stateFile? 7 = some (stateText 7 name "S" "1 (2").toUTF8 ∧ table.isAlive 7 := by
  intro name table
  have hfile : table.stateFile? 7 = some (stateText 7 name "S" "1 (2").toUTF8 := rfl
  have halive := (alive_by_state_word table 7).1 name "S" "1 (2" (by decide) (by decide) hfile
  exact ⟨by decide, by decide, hfile, halive.2 (by decide)⟩

end ProcessTable

end RobotBench
