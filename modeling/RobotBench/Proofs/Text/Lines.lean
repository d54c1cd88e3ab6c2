import Mathlib.Data.List.DropRight
import Mathlib.Tactic.SplitIfs
import RobotBench.Text.Blank
import RobotBench.Text.Lines

/-!
# Lines of a text

How a text falls into lines: a line never holds a line feed (`newline_not_mem_lines`), and
characters without one, ended by one, come back as the first line (`lines_append_break`). A
text may be cut between any two pieces: what follows the cut falls into the pieces that
follow (`pieces_flatten_drop`), and what ends at a line feed keeps its own
(`lines_append`). A line feed after the last line changes at most what is trimmed from it
(`lines_closed`).
-/

namespace RobotBench.Text

/-- A piece is free of line feeds but for one that may end it. -/
theorem mem_pieces {cs piece : List Char} (h : piece ∈ pieces cs) :
    ∃ body, '\n' ∉ body ∧ (piece = body ++ ['\n'] ∨ piece = body) := by
  induction cs generalizing piece with
  | nil => exact absurd h List.not_mem_nil
  | cons c rest ih =>
      rw [pieces] at h
      split_ifs at h with hc
      · rcases List.mem_cons.1 h with rfl | h
        · exact ⟨[], List.not_mem_nil, Or.inl rfl⟩
        · exact ih h
      · split at h
        · obtain rfl := List.mem_singleton.1 h
          exact ⟨[c], by simp [Ne.symm hc], Or.inr rfl⟩
        · rename_i first more hpieces
          rcases List.mem_cons.1 h with rfl | h
          · obtain ⟨body, hbody, hfirst⟩ := ih (hpieces ▸ List.mem_cons_self)
            refine ⟨c :: body, by simp [Ne.symm hc, hbody], ?_⟩
            rcases hfirst with rfl | rfl
            · exact Or.inl rfl
            · exact Or.inr rfl
          · exact ih (hpieces ▸ List.mem_cons_of_mem _ h)

/-- Without its break a piece is what stands before a line feed, less one carriage return. -/
theorem without_break_append (body : List Char) :
    withoutBreak (body ++ ['\n']) = body ∨ body = withoutBreak (body ++ ['\n']) ++ ['\r'] := by
  rcases List.eq_nil_or_concat body with rfl | ⟨first, c, rfl⟩
  · exact Or.inl rfl
  · by_cases hc : c = '\r'
    · subst hc
      exact Or.inr (by simp [withoutBreak])
    · exact Or.inl (by simp [withoutBreak, hc])

/-- A piece without a line feed has no break. -/
theorem without_break_of_not_mem {body : List Char} (h : '\n' ∉ body) :
    withoutBreak body = body := by
  rcases List.eq_nil_or_concat body with rfl | ⟨first, c, rfl⟩
  · rfl
  · have hc : c ≠ '\n' := fun hc => h (by simp [hc])
    simp [withoutBreak, hc]

/-- No line holds a line feed. -/
theorem newline_not_mem_lines {cs line : List Char} (h : line ∈ lines cs) : '\n' ∉ line := by
  obtain ⟨piece, hpiece, rfl⟩ := List.mem_map.1 h
  obtain ⟨body, hbody, rfl | rfl⟩ := mem_pieces hpiece
  · rcases without_break_append body with heq | heq
    · rw [heq]
      exact hbody
    · intro hmem
      rw [heq] at hbody
      exact hbody (List.mem_append_left _ hmem)
  · rw [without_break_of_not_mem hbody]
    exact hbody

theorem pieces_append_break {cs : List Char} (h : '\n' ∉ cs) (rest : List Char) :
    pieces (cs ++ '\n' :: rest) = (cs ++ ['\n']) :: pieces rest := by
  induction cs with
  | nil => simp [pieces]
  | cons c cs ih =>
      have hc : c ≠ '\n' := fun hc => h (by simp [hc])
      have hcs : '\n' ∉ cs := fun hmem => h (List.mem_cons_of_mem _ hmem)
      rw [List.cons_append, pieces, if_neg hc, ih hcs]
      rfl

/-- Characters without a line feed, ended by one, are the first line, unless a carriage
return at their end is taken for a part of the break. -/
theorem lines_append_break {cs : List Char} (h : '\n' ∉ cs) (hlast : cs.getLast? ≠ some '\r')
    (rest : List Char) : lines (cs ++ '\n' :: rest) = cs :: lines rest := by
  rw [lines, pieces_append_break h, List.map_cons]
  rcases without_break_append cs with heq | heq
  · rw [heq]
    rfl
  · exact absurd (by rw [heq]; simp) hlast

/-! ## Cutting between pieces -/

theorem pieces_eq_nil_iff {cs : List Char} : pieces cs = [] ↔ cs = [] := by
  constructor
  · intro h
    rw [← flatten_pieces cs, h]
    rfl
  · rintro rfl
    rfl

/-- What follows the first piece falls into the pieces that follow it. -/
theorem pieces_flatten_tail {cs piece : List Char} {more : List (List Char)}
    (h : pieces cs = piece :: more) : pieces more.flatten = more := by
  induction cs generalizing piece more with
  | nil => cases h
  | cons c rest ih =>
      rw [pieces] at h
      split_ifs at h with hc
      · obtain ⟨-, rfl⟩ := List.cons.inj h
        rw [flatten_pieces]
      · split at h
        · obtain ⟨-, rfl⟩ := List.cons.inj h
          rfl
        · rename_i first later hpieces
          obtain ⟨-, rfl⟩ := List.cons.inj h
          exact ih hpieces

/-- What follows any number of pieces falls into the pieces that follow them. -/
theorem pieces_flatten_drop (cs : List Char) (count : Nat) :
    pieces ((pieces cs).drop count).flatten = (pieces cs).drop count := by
  induction count generalizing cs with
  | zero => rw [List.drop_zero, flatten_pieces]
  | succ count ih =>
      cases hpieces : pieces cs with
      | nil => rfl
      | cons piece more =>
          have hmore := pieces_flatten_tail hpieces
          have hdrop := ih more.flatten
          rw [hmore] at hdrop
          exact hdrop

/-- A text that ends with a line feed keeps its pieces when more is put after it. -/
theorem pieces_append {first : List Char} (h : first = [] ∨ first.getLast? = some '\n')
    (second : List Char) : pieces (first ++ second) = pieces first ++ pieces second := by
  induction first with
  | nil => rfl
  | cons c rest ih =>
      have hrest : rest = [] ∨ rest.getLast? = some '\n' := by
        cases rest with
        | nil => exact .inl rfl
        | cons d rest => exact .inr (by simpa using h)
      by_cases hc : c = '\n'
      · simp [pieces, hc, ih hrest]
      · -- the last character ends the text, and it is not this one
        have hne : rest ≠ [] := by
          rintro rfl
          simp [hc] at h
        obtain ⟨piece, more, hpieces⟩ :=
          List.exists_cons_of_ne_nil (fun hnil => hne (pieces_eq_nil_iff.1 hnil))
        simp [pieces, hc, ih hrest, hpieces]

/-- A piece with another one after it ends with a line feed. -/
theorem piece_ends {cs piece next : List Char} {more : List (List Char)}
    (h : pieces cs = piece :: next :: more) : piece.getLast? = some '\n' := by
  induction cs generalizing piece with
  | nil => cases h
  | cons c rest ih =>
      rw [pieces] at h
      split_ifs at h with hc
      · obtain ⟨rfl, -⟩ := List.cons.inj h
        rfl
      · split at h
        · cases h
        · rename_i first later hpieces
          obtain ⟨rfl, rfl⟩ := List.cons.inj h
          have hfirst := ih hpieces
          cases first with
          | nil => cases hfirst
          | cons d first => simpa using hfirst

/-- The first pieces of a text, put together, fall into these pieces. -/
theorem pieces_flatten_take (cs : List Char) (count : Nat) :
    pieces ((pieces cs).take count).flatten = (pieces cs).take count := by
  induction count generalizing cs with
  | zero => rfl
  | succ count ih =>
      cases hpieces : pieces cs with
      | nil => rfl
      | cons piece more =>
          have hmore := pieces_flatten_tail hpieces
          have htext : cs = piece ++ more.flatten := by
            rw [← flatten_pieces cs, hpieces, List.flatten_cons]
          rw [List.take_succ_cons, List.flatten_cons]
          cases more with
          | nil =>
              rw [List.take_nil, List.flatten_nil, List.append_nil]
              rw [List.flatten_nil, List.append_nil] at htext
              rwa [htext] at hpieces
          | cons next more =>
              -- the first piece is complete, so that it is a piece whatever comes next
              have hends := piece_ends hpieces
              have hfirst : pieces piece = [piece] := by
                rw [htext, pieces_append (.inr hends), hmore] at hpieces
                exact List.append_cancel_right hpieces
              have htake := ih (next :: more).flatten
              rw [hmore] at htake
              rw [pieces_append (.inr hends), hfirst, htake]
              rfl

theorem lines_append {first : List Char} (h : first = [] ∨ first.getLast? = some '\n')
    (second : List Char) : lines (first ++ second) = lines first ++ lines second := by
  rw [lines, pieces_append h, List.map_append]
  rfl

/-! ## Trimming -/

/-- A trimmed text is the beginning of the text without the blanks in front. -/
theorem trim_front (cs : List Char) : trim cs <+: cs.dropWhile isBlank :=
  List.rdropWhile_prefix isBlank (cs.dropWhile isBlank)

theorem trim_subset (cs : List Char) : trim cs ⊆ cs := fun _ h =>
  (List.dropWhile_suffix isBlank).subset ((trim_front cs).subset h)

/-- The first character of a trimmed text is not blank. -/
theorem head_trim_blank {c : Char} {cs rest : List Char} (h : trim cs = c :: rest) :
    isBlank c = false := by
  obtain ⟨tail, htail⟩ := trim_front cs
  rw [h, List.cons_append] at htail
  have hhead := List.head_dropWhile_not isBlank (l := cs) (by rw [← htail]; simp)
  simpa [← htail] using hhead

/-- A text that begins and ends with a character that shows is not trimmed. -/
theorem trim_of_ends {c d : Char} {cs : List Char} (hc : isBlank c = false)
    (hd : isBlank d = false) (hlast : (c :: cs).getLast? = some d) : trim (c :: cs) = c :: cs := by
  obtain ⟨front, hfront⟩ : ∃ front, c :: cs = front ++ [d] := by
    obtain ⟨front, hfront⟩ := List.getLast?_eq_some_iff.1 hlast
    exact ⟨front, hfront⟩
  rw [trim, List.dropWhile_cons_of_neg (by simp [hc]), hfront, List.reverse_append,
    List.reverse_singleton, List.singleton_append, List.dropWhile_cons_of_neg (by simp [hd])]
  simp

/-- A blank at the end of a text is trimmed. -/
theorem trim_append_blank {c : Char} (hc : isBlank c = true) (cs : List Char) :
    trim (cs ++ [c]) = trim cs := by
  rw [trim, trim, List.dropWhile_append]
  split
  · rename_i hblank
    rw [List.isEmpty_iff.1 hblank, List.dropWhile_cons_of_pos hc]
    rfl
  · rw [List.reverse_append, List.reverse_singleton, List.singleton_append,
      List.dropWhile_cons_of_pos hc]

/-! ## The last line -/

/-- A text is some lines and then characters without a line feed. -/
theorem exists_last_line (cs : List Char) :
    ∃ first last, cs = first ++ last ∧ (first = [] ∨ first.getLast? = some '\n') ∧
      '\n' ∉ last := by
  induction cs with
  | nil => exact ⟨[], [], rfl, .inl rfl, List.not_mem_nil⟩
  | cons c rest ih =>
      obtain ⟨first, last, rfl, hfirst, hlast⟩ := ih
      cases first with
      | nil =>
          by_cases hc : c = '\n'
          · exact ⟨[c], last, rfl, .inr (by rw [hc]; rfl), hlast⟩
          · exact ⟨[], c :: last, rfl, .inl rfl, List.not_mem_cons_of_ne_of_not_mem
              (Ne.symm hc) hlast⟩
      | cons d first =>
          refine ⟨c :: d :: first, last, rfl, .inr ?_, hlast⟩
          rcases hfirst with hnil | hend
          · cases hnil
          · rwa [List.getLast?_cons_cons]

/-- Characters without a line feed are one piece, if there are any. -/
theorem pieces_of_not_mem {cs : List Char} (hne : cs ≠ []) (h : '\n' ∉ cs) :
    pieces cs = [cs] := by
  induction cs with
  | nil => exact absurd rfl hne
  | cons c rest ih =>
      have hc : c ≠ '\n' := fun hc => h (by simp [hc])
      rw [pieces, if_neg hc]
      cases rest with
      | nil => rfl
      | cons d rest => rw [ih (List.cons_ne_nil _ _) fun hmem => h (List.mem_cons_of_mem _ hmem)]

/-- A line feed after a text whose last line has none changes no line but for the blanks at its
end. -/
theorem lines_closed {cs : List Char} (hne : cs ≠ []) (hlast : cs.getLast? ≠ some '\n') :
    (lines (cs ++ ['\n'])).map trim = (lines cs).map trim := by
  obtain ⟨first, last, rfl, hfirst, hbreak⟩ := exists_last_line cs
  have hsome : last ≠ [] := by
    rintro rfl
    rw [List.append_nil] at hne hlast
    exact hfirst.elim hne hlast
  have htrim : trim (withoutBreak (last ++ ['\n'])) = trim last := by
    rcases without_break_append last with heq | heq
    · rw [heq]
    · have hblank := trim_append_blank (c := '\r') (by decide) (withoutBreak (last ++ ['\n']))
      rw [← heq] at hblank
      exact hblank.symm
  have hopen : lines last = [last] := by
    rw [lines, pieces_of_not_mem hsome hbreak, List.map_singleton,
      without_break_of_not_mem hbreak]
  have hclosed : lines (last ++ ['\n']) = [withoutBreak (last ++ ['\n'])] := by
    rw [lines, pieces_append_break hbreak]
    rfl
  rw [List.append_assoc, lines_append hfirst, lines_append hfirst, hopen, hclosed,
    List.map_append, List.map_append, List.map_singleton, List.map_singleton, htrim]

end RobotBench.Text
