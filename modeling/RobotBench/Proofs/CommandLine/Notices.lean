import RobotBench.CommandLine.Command

/-!
# Notices of failures

How the messages of a failure are shown, said without the code that shows them. The outermost
message follows the word `Error`. A single cause is moved right below it; several are numbered from
zero, in columns. `is_notice_iff` says that a failure is shown in exactly this way.
-/

namespace RobotBench.CommandLine

/-- The text is the message with all its lines after the first moved right. -/
def Moved (blanks : Nat) (message text : String) : Prop :=
  text.toList = ('\n' :: List.replicate blanks ' ').intercalate (message.toList.splitOn '\n')

/-- The text is the number, moved right to five columns. -/
def InColumns (n : Nat) (text : String) : Prop :=
  ∃ blanks, text = String.ofList (List.replicate blanks ' ') ++ toString n ∧
    text.length = max 5 (toString n).length

/-- The text lists the causes, numbered from a number on. -/
inductive Numbered : Nat → Messages → String → Prop
  | done (n : Nat) : Numbered n [] ""
  | cause {n : Nat} {number cause text : String} {more : Messages} {rest : String} :
      InColumns n number → Moved 7 cause text → Numbered (n + 1) more rest →
      Numbered n (cause :: more) ("\n" ++ number ++ ": " ++ text ++ rest)

/-- The text is the notice of a failure with the messages, outermost first. -/
inductive IsNotice : Messages → String → Prop
  | alone (message : String) : IsNotice [message] ("Error: " ++ message ++ "\n")
  | caused (message : String) {cause text : String} : Moved 4 cause text →
      IsNotice [message, cause] ("Error: " ++ message ++ "\n\nCaused by:\n    " ++ text ++ "\n")
  | chained (message : String) {causes : Messages} {text : String} : 2 ≤ causes.length →
      Numbered 0 causes text →
      IsNotice (message :: causes) ("Error: " ++ message ++ "\n\nCaused by:" ++ text ++ "\n")

/-- Moving the lines after a line break right joins the lines with these blanks between. -/
theorem moved_iff {blanks : Nat} {message text : String} :
    Moved blanks message text ↔ text = indent blanks message := by
  have hlines (cs : List Char) : ('\n' :: List.replicate blanks ' ').intercalate (cs.splitOn '\n') =
      cs.flatMap fun c => if c = '\n' then '\n' :: List.replicate blanks ' ' else [c] := by
    induction cs with
    | nil => rfl
    | cons c cs ih =>
        obtain ⟨line, lines, hsplit⟩ :=
          List.exists_cons_of_ne_nil (List.splitOnP_ne_nil (· == '\n') cs)
        rw [List.splitOn, List.splitOnP_cons_eq_if_modifyHead, List.flatMap_cons, ← ih,
          List.splitOn, hsplit]
        -- a line break opens another line, any other character goes on the first one
        by_cases hbreak : c = '\n'
        · rw [if_pos (beq_iff_eq.2 hbreak), if_pos hbreak, List.intercalate_cons_cons,
            List.nil_append]
        · rw [if_neg (fun h => hbreak (beq_iff_eq.1 h)), if_neg hbreak, List.modifyHead_cons]
          cases lines with
          | nil =>
              rw [List.intercalate_singleton, List.intercalate_singleton]
              rfl
          | cons next lines =>
              rw [List.intercalate_cons_cons, List.intercalate_cons_cons]
              rfl
  rw [Moved, hlines, indent, ← String.toList_inj, String.toList_ofList]

/-- A number is moved right by as many blanks as are missing. -/
theorem in_columns_iff {n : Nat} {text : String} : InColumns n text ↔ text = columns n := by
  have hcolumns : columns n =
      String.ofList (List.replicate (5 - (toString n).length) ' ') ++ toString n := by
    rw [columns, Nat.toString_eq_ofList_toDigits, String.length_ofList, ← String.ofList_append]
  rw [hcolumns]
  constructor
  · rintro ⟨blanks, rfl, hlength⟩
    rw [String.length_append, String.length_ofList, List.length_replicate] at hlength
    have hblanks : blanks = 5 - (toString n).length := by omega
    rw [hblanks]
  · rintro rfl
    refine ⟨_, rfl, ?_⟩
    rw [String.length_append, String.length_ofList, List.length_replicate]
    omega

/-- Causes are listed in exactly one way. -/
theorem numbered_iff {n : Nat} {causes : Messages} {text : String} :
    Numbered n causes text ↔ text = String.join ((causes.zipIdx n).map fun (cause, n) =>
      "\n" ++ columns n ++ ": " ++ indent 7 cause) := by
  induction causes generalizing n text with
  | nil =>
      constructor
      · rintro ⟨⟩
        rfl
      · rintro rfl
        exact .done n
  | cons cause causes ih =>
      rw [List.zipIdx_cons, List.map_cons, String.join_cons]
      constructor
      · rintro (_ | ⟨hnumber, hcause, hmore⟩)
        rw [in_columns_iff.1 hnumber, moved_iff.1 hcause, ih.1 hmore]
      · rintro rfl
        exact .cause (in_columns_iff.2 rfl) (moved_iff.2 rfl) (ih.2 rfl)

/-- The notice of a single message. -/
theorem notice_alone (message : String) :
    failureNotice [message] = "Error: " ++ message ++ "\n" := by
  show "Error: " ++ message ++ "" ++ "\n" = _
  rw [String.append_empty]

/-- The notice of a message with its cause. -/
theorem notice_caused (message cause : String) : failureNotice [message, cause] =
    "Error: " ++ message ++ "\n\nCaused by:\n    " ++ indent 4 cause ++ "\n" := by
  show "Error: " ++ message ++ ("\n\nCaused by:\n    " ++ indent 4 cause) ++ "\n" = _
  rw [← String.append_assoc]

/-- The notice of a message with several causes. -/
theorem notice_chained (message first second : String) (more : Messages) {text : String}
    (h : Numbered 0 (first :: second :: more) text) :
    failureNotice (message :: first :: second :: more) =
      "Error: " ++ message ++ "\n\nCaused by:" ++ text ++ "\n" := by
  rw [numbered_iff.1 h]
  show "Error: " ++ message ++ ("\n\nCaused by:" ++ _) ++ "\n" = _
  rw [← String.append_assoc]

/-- A failure with messages is shown as its notice and in no other way. -/
theorem is_notice_iff {messages : Messages} {text : String} :
    IsNotice messages text ↔ messages ≠ [] ∧ text = failureNotice messages := by
  constructor
  · intro h
    cases h with
    | alone message => exact ⟨List.cons_ne_nil _ _, (notice_alone message).symm⟩
    | caused message hcause =>
        obtain rfl := moved_iff.1 hcause
        exact ⟨List.cons_ne_nil _ _, (notice_caused message _).symm⟩
    | @chained message shown _ hlength hcauses =>
        match shown, hlength with
        | first :: second :: more, _ =>
            exact ⟨List.cons_ne_nil _ _, (notice_chained message first second more hcauses).symm⟩
  · rintro ⟨hmessages, rfl⟩
    match messages with
    | [] => exact absurd rfl hmessages
    | [message] => exact notice_alone message ▸ .alone message
    | [message, cause] => exact notice_caused message cause ▸ .caused message (moved_iff.2 rfl)
    | message :: first :: second :: more =>
        have hlength : 2 ≤ (first :: second :: more).length := Nat.le_add_left 2 more.length
        have hcauses : Numbered 0 (first :: second :: more) _ := numbered_iff.2 rfl
        exact notice_chained message first second more hcauses ▸
          .chained message hlength hcauses

end RobotBench.CommandLine
