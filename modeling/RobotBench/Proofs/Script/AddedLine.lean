import RobotBench.Payload
import RobotBench.Proofs.Number.Digits
import RobotBench.Proofs.Script.Heading
import RobotBench.Proofs.Script.Joining

/-!
# One more line

A payload may get another line after its last one, which is closed by a line feed first where
none ends it. That changes nothing in how the payload is read (`Script.of_text_closed`), and a
line that is a name is read as a call without arguments, so that the payload with the line is the
same script with this call after it: `Payload.of_text_with_line`.
-/

namespace RobotBench

/-! ## Closed texts -/

/-- The text with a line feed after its last line. -/
def Text.closed (text : String) : String :=
  if text = "" ∨ text.toList.getLast? = some '\n' then text else text ++ "\n"

theorem Text.closed_end (text : String) :
    Text.closed text = "" ∨ (Text.closed text).toList.getLast? = some '\n' := by
  unfold closed
  split
  · assumption
  · right
    rw [String.toList_append]
    exact List.getLast?_concat

/-- Of the lines of a text only what is left when they are trimmed is read. -/
theorem token_lines_trimmed {ls ls' : List (List Char)} (h : ls.map Text.trim = ls'.map Text.trim)
    (number : Nat) : tokenLines number ls = tokenLines number ls' := by
  induction ls generalizing ls' number with
  | nil =>
      obtain rfl := List.map_eq_nil_iff.1 h.symm
      rfl
  | cons cs more ih =>
      obtain ⟨cs', more', rfl, hcs, hmore⟩ := List.map_eq_cons_iff.1 h.symm
      have hwords : lineWords? cs = lineWords? cs' := by rw [lineWords?, lineWords?, hcs]
      rw [tokenLines, tokenLines, hwords, ih hmore.symm]

/-- The lines of a text and of the same text closed are as many and are trimmed alike. -/
theorem Text.lines_of_closed (text : String) :
    (Text.lines (Text.closed text).toList).map Text.trim =
      (Text.lines text.toList).map Text.trim := by
  unfold closed
  split
  · rfl
  · rename_i hopen
    obtain ⟨hsome, hlast⟩ := not_or.1 hopen
    have hne : text.toList ≠ [] := fun hnil => hsome (String.toList_eq_nil_iff.1 hnil)
    rw [String.toList_append]
    exact Text.lines_closed hne hlast

/-- Closing a text does not change how it is read. -/
theorem Script.of_text_closed (text : String) (firstLine : Nat) :
    Script.ofText (Text.closed text) firstLine = Script.ofText text firstLine := by
  rw [ofText, ofText, token_lines_trimmed (Text.lines_of_closed text)]

/-! ## Names as lines -/

/-- The parts of a name show, and none of them is special in a line. -/
theorem name_part_plain {c : Char} (h : isNamePart c) :
    Text.isBlank c = false ∧ Text.isSeparator c = false ∧ c ∉ ['\'', '"', '\\', '#'] := by
  have hascii : c.toNat < 128 := by
    have hbound (last : Char) (hlast : last.toNat < 128) (hc : c.val ≤ last.val) :
        c.toNat < 128 := Nat.lt_of_le_of_lt (UInt32.le_iff_toNat_le.1 hc) hlast
    have h : ((c.isUpper || c.isLower || c.isDigit) || decide (c = '_')) = true := h
    rcases Bool.or_eq_true_iff.1 h with h | h
    · rcases Bool.or_eq_true_iff.1 h with h | h
      · rcases Bool.or_eq_true_iff.1 h with hupper | hlower
        · exact hbound 'Z' (by decide) (of_decide_eq_true hupper).2
        · exact hbound 'z' (by decide) (of_decide_eq_true (Bool.and_eq_true_iff.1 hlower).2)
      · exact Nat.lt_of_le_of_lt (digit_cases h).2 (by decide)
    · rw [of_decide_eq_true h]
      decide
  have hall : ∀ n < 128, isNamePart (Char.ofNat n) → Text.isBlank (Char.ofNat n) = false ∧
      Text.isSeparator (Char.ofNat n) = false ∧ Char.ofNat n ∉ ['\'', '"', '\\', '#'] := by
    decide
  have hc := hall c.toNat hascii
  rw [Char.ofNat_toNat] at hc
  exact hc h

/-- Inside a word, the parts of a name up to the end of the line are the rest of the word. -/
theorem split_name_parts {cs : List Char} (h : ∀ c ∈ cs, isNamePart c) :
    Text.splitFrom .plain cs = some [cs] := by
  induction cs with
  | nil => rfl
  | cons c rest ih =>
      obtain ⟨-, hseparator, hspecial⟩ := name_part_plain (h c List.mem_cons_self)
      simp only [List.mem_cons, List.not_mem_nil, or_false, not_or] at hspecial
      obtain ⟨hsingle, hdouble, hescape, -⟩ := hspecial
      rw [Text.splitFrom]
      · rw [if_neg hsingle, if_neg hdouble, hseparator,
          ih fun d hd => h d (List.mem_cons_of_mem _ hd)]
        rfl
      -- the equation that was used asks that no backslash comes first
      all_goals
        intros
        contradiction

/-- A line that is a name has this one word. -/
theorem line_words_name {name : String} (h : isIdentifier name) :
    lineWords? name.toList = some [name] := by
  have hparts := identifier_chars h
  cases hname : name.toList with
  | nil =>
      rw [isIdentifier, hname] at h
      cases h
  | cons c rest =>
      rw [hname] at hparts
      obtain ⟨hblank, hseparator, hspecial⟩ := name_part_plain (hparts c List.mem_cons_self)
      simp only [List.mem_cons, List.not_mem_nil, or_false, not_or] at hspecial
      obtain ⟨hsingle, hdouble, hescape, hcomment⟩ := hspecial
      have htrim : Text.trim (c :: rest) = c :: rest := by
        have hlast := List.getLast?_eq_some_getLast (List.cons_ne_nil c rest)
        exact Text.trim_of_ends hblank
          (name_part_plain (hparts _ (List.getLast_mem _))).1 hlast
      have hsplit : Text.splitFrom .gap (c :: rest) = some [c :: rest] := by
        rw [Text.splitFrom]
        · rw [if_neg hsingle, if_neg hdouble, hseparator, if_neg Bool.false_ne_true,
            if_neg hcomment, split_name_parts fun d hd => hparts d (List.mem_cons_of_mem _ hd)]
          rfl
        all_goals
          intros
          contradiction
      have hwords : Text.words? (c :: rest) = some [name] := by
        rw [Text.words?, hsplit, ← hname]
        simp
      unfold lineWords?
      rw [htrim]
      split
      · rename_i heq
        cases heq
      · rename_i heq
        exact absurd (List.cons.inj heq).1 hcomment
      · exact hwords

/-- A line that is a name and no keyword is the call of this name without arguments. -/
theorem Script.of_text_name {name : String} (h : isIdentifier name) (hword : name ∉ keywords)
    (line : Nat) : Script.ofText (name ++ "\n") line = .ok [.mk line (.call ⟨name, []⟩)] := by
  have hbreak : '\n' ∉ name.toList := fun hmem =>
    (name_part_ne (identifier_chars h _ hmem)).2 rfl
  have hend : name.toList.getLast? ≠ some '\r' := by
    intro hlast
    have hblank := (name_part_plain (identifier_chars h _ (List.mem_of_getLast? hlast))).1
    exact absurd hblank (by decide)
  have hlines : Text.lines (name ++ "\n").toList = [name.toList] := by
    rw [String.toList_append]
    exact Text.lines_append_break hbreak hend []
  have htokens : tokenLines line [name.toList] = .ok [⟨line, name, []⟩] := by
    rw [tokenLines, line_words_name h]
    rfl
  have hrole : TokenLine.role ⟨line, name, []⟩ = .ok (.simple (.call ⟨name, []⟩)) :=
    TokenLine.role_iff.2 ⟨hword, h, [], rfl, .nil⟩
  have hlast : Script.ofLines [⟨line, name, []⟩] = .ok [.mk line (.call ⟨name, []⟩)] := by
    rw [ofLines, OpenScript.steps, OpenScript.step, hrole]
    rfl
  rw [ofText, hlines, htokens]
  exact hlast

/-! ## Payloads with a line more -/

/-- The payload with another line after its last one. -/
def Payload.withLine (payload : Payload) (line : String) : Payload :=
  { payload with text := Text.closed payload.text ++ (line ++ "\n") }

/-- A payload that is followed by the line of a name is the script of the payload followed by a
call of this name, on the line after the last one. -/
theorem Payload.of_text_with_line {payload : Payload} {script : Script} {name : String}
    (h : isIdentifier name) (hword : name ∉ keywords)
    (hread : Script.ofText payload.text payload.firstLine = .ok script) :
    Script.ofText (payload.withLine name).text payload.firstLine =
      .ok (script ++ [.mk (payload.firstLine + payload.lineCount) (.call ⟨name, []⟩)]) := by
  have hcount : (Text.lines (Text.closed payload.text).toList).length = payload.lineCount := by
    have hlength := congrArg List.length (Text.lines_of_closed payload.text)
    rwa [List.length_map, List.length_map] at hlength
  rw [← Script.of_text_closed] at hread
  rw [withLine, Script.of_text_append (Text.closed_end payload.text) hread, hcount,
    Script.of_text_name h hword]
  rfl

end RobotBench
