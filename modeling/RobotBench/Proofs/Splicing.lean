import RobotBench.Payload
import RobotBench.Proofs.Script.TokenLines

/-!
# Where a payload begins

A program is cut after the last of its lines that contain a marker, and nowhere else. What
is left keeps its place: its lines are those of the program from there on, under the numbers
that they have in the program, and there is nothing to cut in it any more. All of this is
said in `payload_follows_markers`, for every text and all markers.
-/

namespace RobotBench

/-- The line contains one of the texts. -/
def MarkedBy (texts : List String) (line : List Char) : Prop :=
  ∃ marker ∈ texts, marker.toList <:+: line

namespace Markers

theorem is_part_of_iff {part line : List Char} : isPartOf part line = true ↔ part <:+: line := by
  induction line with
  | nil => simp [isPartOf]
  | cons c rest ih =>
      rw [isPartOf, Bool.or_eq_true, List.isPrefixOf_iff_prefix, ih, List.infix_cons_iff]

theorem match_chars_iff {m : Markers} {line : List Char} :
    m.matchChars line = true ↔ MarkedBy m.texts line := by
  simp only [matchChars, List.any_eq_true, is_part_of_iff, MarkedBy]

/-- Markers are the texts that they are made from. -/
theorem texts_of_list {texts : List String} {compile : Pattern.Compiler} {m : Markers}
    (h : ofList texts compile = .ok m) : m.texts = texts := by
  unfold ofList at h
  split at h
  · cases h
  split at h
  · cases h
  split at h
  · cases h
  · cases h
    rfl

end Markers

/-! ## The last item that passes -/

section

variable {α : Type} {test : α → Bool}

theorem last_index_none_iff {items : List α} :
    lastIndex? test items = none ↔ ∀ a ∈ items, test a = false := by
  induction items with
  | nil => simp [lastIndex?]
  | cons a rest ih =>
      rw [lastIndex?, List.forall_mem_cons, ← ih]
      cases hrest : lastIndex? test rest with
      | some k => simp
      | none => simp

/-- The last item that passes passes, and none after it does. -/
theorem last_index_some_iff {items : List α} {index : Nat} :
    lastIndex? test items = some index ↔
      (∃ a, items[index]? = some a ∧ test a = true) ∧
        ∀ a ∈ items.drop (index + 1), test a = false := by
  induction items generalizing index with
  | nil => simp [lastIndex?]
  | cons a rest ih =>
      rw [lastIndex?]
      cases hrest : lastIndex? test rest with
      | some k =>
          obtain ⟨⟨b, hb, hpasses⟩, -⟩ := ih.1 hrest
          cases index with
          | zero =>
              -- the first item is not the last one that passes, for there is one in the rest
              have hnot : ¬ ∀ c ∈ rest, test c = false := fun h =>
                Bool.false_ne_true ((h b (List.mem_of_getElem? hb)).symm.trans hpasses)
              simp [hnot]
          | succ index =>
              have hindex := @ih index
              rw [hrest] at hindex
              simpa using hindex
      | none =>
          have hnone := last_index_none_iff.1 hrest
          cases index with
          | zero => simpa using fun _ => hnone
          | succ index =>
              have hnot : ¬ ∃ b, rest[index]? = some b ∧ test b = true := by
                rintro ⟨b, hb, hpasses⟩
                exact Bool.false_ne_true ((hnone b (List.mem_of_getElem? hb)).symm.trans hpasses)
              by_cases ha : test a = true <;> simpa [ha] using fun b hb hpasses =>
                absurd ⟨b, hb, hpasses⟩ hnot

end

/-! ## The cut -/

namespace Program

variable (m : Markers) (p : Program)

/-- The index of the payload's first line. -/
def start : Nat := (p.payload m).firstLine - 1

theorem first_line_eq : (p.payload m).firstLine = (p.lastMarker? m).elim 1 (· + 2) := by
  unfold payload
  cases p.lastMarker? m <;> rfl

theorem payload_text : (p.payload m).text = String.ofList (p.lines.drop (p.start m)).flatten := rfl

/-- The cut is at the last line that contains a marker. -/
theorem cut_index_some_iff {index : Nat} :
    (p.payload m).cutIndex = some index ↔
      (∃ line, p.lines[index]? = some line ∧ MarkedBy m.texts line) ∧
        ∀ line ∈ p.lines.drop (index + 1), ¬ MarkedBy m.texts line := by
  simp only [← Markers.match_chars_iff, Bool.not_eq_true]
  exact last_index_some_iff

/-- There is no cut where no line contains a marker. -/
theorem cut_index_none_iff :
    (p.payload m).cutIndex = none ↔ ∀ line ∈ p.lines, ¬ MarkedBy m.texts line := by
  simp only [← Markers.match_chars_iff, Bool.not_eq_true]
  exact last_index_none_iff

/-- The program has all the lines before the payload's first one. -/
theorem start_le : p.start m ≤ p.lines.length := by
  rw [start, first_line_eq]
  cases hlast : p.lastMarker? m with
  | none => exact Nat.zero_le _
  | some k =>
      obtain ⟨⟨line, hline, -⟩, -⟩ := last_index_some_iff.1 hlast
      obtain ⟨hlt, -⟩ := List.getElem?_eq_some_iff.1 hline
      exact hlt

/-- No line of the payload is marked. -/
theorem after_start : ∀ line ∈ p.lines.drop (p.start m), m.matchChars line = false := by
  rw [start, first_line_eq]
  cases hlast : p.lastMarker? m with
  | none => exact last_index_none_iff.1 hlast
  | some k => exact (last_index_some_iff.1 hlast).2

/-- The payload of a text falls into the pieces of the text that follow the cut. -/
theorem pieces_payload (source : String) :
    Text.pieces ((ofText source).payload m).text.toList =
      (Text.pieces source.toList).drop ((ofText source).start m) := by
  rw [payload_text, String.toList_ofList]
  exact Text.pieces_flatten_drop _ _

/-- A text without a marker is all payload. -/
theorem payload_unmarked {text : String}
    (h : ∀ line ∈ Text.pieces text.toList, m.matchChars line = false) :
    (ofText text).payload m = ⟨none, 1, text⟩ := by
  have hnone : (ofText text).lastMarker? m = none := last_index_none_iff.2 h
  unfold payload
  rw [hnone]
  show Payload.mk none 1 (String.ofList (Text.pieces text.toList).flatten) = _
  rw [Text.flatten_pieces, String.ofList_toList]

/-- In a payload there is nothing to cut. -/
theorem payload_payload (source : String) :
    (ofText ((ofText source).payload m).text).payload m =
      ⟨none, 1, ((ofText source).payload m).text⟩ := by
  refine payload_unmarked m fun line hline => after_start m (ofText source) line ?_
  rw [pieces_payload] at hline
  exact hline

end Program

/-- The payload of a text ends the text, and what stands before it are the lines up to and
including the last one that contains a marker, of which there may be none. Its first line has
the number that it has in the text, the lines of both add up, and line for line the payload
has what the text has from there on. So whatever words the payload is read as, or an open
quote in it, stand in the text on the line of that number. The payload cut again is itself. -/
theorem payload_follows_markers {texts : List String} {compile : Pattern.Compiler} {m : Markers}
    (hm : Markers.ofList texts compile = .ok m) (source : String) :
    let physical := Text.pieces source.toList
    let payload := (Program.ofText source).payload m
    payload.text.toList <:+ source.toList ∧
    source.toList = (physical.take (payload.firstLine - 1)).flatten ++ payload.text.toList ∧
    (∀ index, payload.cutIndex = some index ↔
      (∃ line, physical[index]? = some line ∧ MarkedBy texts line) ∧
        ∀ line ∈ physical.drop (index + 1), ¬ MarkedBy texts line) ∧
    (payload.cutIndex = none ↔ ∀ line ∈ physical, ¬ MarkedBy texts line) ∧
    payload.firstLine = payload.cutIndex.elim 1 (· + 2) ∧
    (Program.ofText source).lineCount = (payload.firstLine - 1) + payload.lineCount ∧
    (∀ offset, (Text.lines payload.text.toList)[offset]? =
      (physical[payload.firstLine - 1 + offset]?).map Text.withoutBreak) ∧
    (∀ lines, tokenLines payload.firstLine (Text.lines payload.text.toList) = .ok lines →
      ∀ line ∈ lines, ∃ piece, physical[line.number - 1]? = some piece ∧
        lineWords? (Text.withoutBreak piece) = some line.tokens) ∧
    (∀ bad, tokenLines payload.firstLine (Text.lines payload.text.toList) = .error bad →
      ∃ piece, physical[bad - 1]? = some piece ∧
        lineWords? (Text.withoutBreak piece) = none) ∧
    (Program.ofText payload.text).payload m = ⟨none, 1, payload.text⟩ := by
  intro physical payload
  obtain rfl := Markers.texts_of_list hm
  have hsome (index : Nat) : payload.cutIndex = some index ↔
      (∃ line, physical[index]? = some line ∧ MarkedBy m.texts line) ∧
        ∀ line ∈ physical.drop (index + 1), ¬ MarkedBy m.texts line :=
    Program.cut_index_some_iff m (Program.ofText source)
  have hnone : payload.cutIndex = none ↔ ∀ line ∈ physical, ¬ MarkedBy m.texts line :=
    Program.cut_index_none_iff m (Program.ofText source)
  have hfirst : payload.firstLine = payload.cutIndex.elim 1 (· + 2) :=
    Program.first_line_eq m (Program.ofText source)
  have hpieces : Text.pieces payload.text.toList = physical.drop (payload.firstLine - 1) :=
    Program.pieces_payload m source
  have hle : payload.firstLine - 1 ≤ physical.length :=
    Program.start_le m (Program.ofText source)
  have hpos : 1 ≤ payload.firstLine := Nat.le_add_left 1 _
  have hagain : (Program.ofText payload.text).payload m = ⟨none, 1, payload.text⟩ :=
    Program.payload_payload m source
  have hcount : (Program.ofText source).lineCount = physical.length := rfl
  have hwhole : physical.flatten = source.toList := Text.flatten_pieces _
  -- nothing else is used of what the two are
  clear_value payload physical
  have hsource : source.toList =
      (physical.take (payload.firstLine - 1)).flatten ++ payload.text.toList := by
    rw [← Text.flatten_pieces payload.text.toList, hpieces, ← List.flatten_append,
      List.take_append_drop, hwhole]
  have hlines (offset : Nat) : (Text.lines payload.text.toList)[offset]? =
      (physical[payload.firstLine - 1 + offset]?).map Text.withoutBreak := by
    rw [Text.lines, hpieces, List.getElem?_map, List.getElem?_drop]
  -- what is found in the payload is found in the text, at the index that goes with the number
  have hphysical {offset : Nat} {cs : List Char}
      (h : (Text.lines payload.text.toList)[offset]? = some cs) :
      ∃ piece, physical[payload.firstLine + offset - 1]? = some piece ∧
        Text.withoutBreak piece = cs := by
    rw [hlines] at h
    obtain ⟨piece, hpiece, hcs⟩ := Option.map_eq_some_iff.1 h
    have hindex : payload.firstLine + offset - 1 = payload.firstLine - 1 + offset := by omega
    exact ⟨piece, hindex ▸ hpiece, hcs⟩
  refine ⟨⟨_, hsource.symm⟩, hsource, hsome, hnone, hfirst, ?_, hlines,
    fun lines hread line hline => ?_, fun bad hread => ?_, hagain⟩
  · rw [hcount, Payload.lineCount, Text.lines, hpieces, List.length_map, List.length_drop]
    omega
  · rw [(token_lines_iff.1 hread).2] at hline
    obtain ⟨offset, cs, hcs, hwords, hnumber⟩ := mem_significant_lines hline
    obtain ⟨piece, hpiece, rfl⟩ := hphysical hcs
    exact ⟨piece, hnumber ▸ hpiece, hwords⟩
  · obtain ⟨offset, cs, hcs, hwords, hnumber⟩ := token_lines_error hread
    obtain ⟨piece, hpiece, rfl⟩ := hphysical hcs
    exact ⟨piece, hnumber ▸ hpiece, hwords⟩

/-- Two lines are marked, the second of them inside a word; after it a quote is left open. -/
theorem payload_follows_markers_header :
    Markers.ofList ["import", "use("] Pattern.bounded = .ok ⟨["import", "use("]⟩ ∧
      (Program.ofText "use(x)\r\nreimported\nstop\r\n\n say 'it").payload
        ⟨["import", "use("]⟩ = ⟨some 1, 3, "stop\r\n\n say 'it"⟩ ∧
      (Program.ofText "use(x)\r\nreimported\nstop\r\n\n say 'it").lineCount = 2 + 3 ∧
      (∃ piece, (Text.pieces "use(x)\r\nreimported\nstop\r\n\n say 'it".toList)[4]? =
        some piece ∧ lineWords? (Text.withoutBreak piece) = none) ∧
      (Program.ofText "stop\r\n\n say 'it").payload ⟨["import", "use("]⟩ =
        ⟨none, 1, "stop\r\n\n say 'it"⟩ := by
  have hm : Markers.ofList ["import", "use("] Pattern.bounded = .ok ⟨["import", "use("]⟩ := by rfl
  have hpayload : (Program.ofText "use(x)\r\nreimported\nstop\r\n\n say 'it").payload
      ⟨["import", "use("]⟩ = ⟨some 1, 3, "stop\r\n\n say 'it"⟩ := by rfl
  have hopen : tokenLines 3 (Text.lines "stop\r\n\n say 'it".toList) = .error 5 := by rfl
  obtain ⟨-, -, -, -, -, hcount, -, -, hbad, hagain⟩ :=
    payload_follows_markers hm "use(x)\r\nreimported\nstop\r\n\n say 'it"
  rw [hpayload] at hcount hbad hagain
  exact ⟨hm, hpayload, hcount, hbad 5 hopen, hagain⟩

end RobotBench
