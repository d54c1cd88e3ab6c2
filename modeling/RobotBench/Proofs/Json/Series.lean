import RobotBench.Proofs.Json.Numeral

/-!
# Series of items and fields

The text between the brackets of an array or object, with any blanks in it: `Series` relates it
to what its parts stand for. An array is read item by item to its closing bracket, and it gives
what its items give, or nothing if one of them gives nothing (`read_items_judged`,
`read_items_series`). An object is read field by field in the same way (`read_members_judged`).
The layout with a part on each line is one of these: `spread_series`.
-/

namespace RobotBench.Json

/-! ## Blanks -/

/-- Blanks only. -/
def IsGap (gap : List Char) : Prop := ∀ c ∈ gap, c ∈ [' ', '\n', '\t', '\r']

/-- Nothing between two parts is a gap. -/
theorem IsGap.nil : IsGap [] := fun _ h => nomatch h

/-- A single blank is a gap. -/
theorem space_gap : IsGap [' '] := List.forall_mem_singleton.2 (by decide)

/-- The line break and the blanks of any depth are a gap. -/
theorem new_line_gap (depth : Nat) : IsGap (newLine depth) := by
  intro c hc
  rcases List.mem_cons.1 hc with rfl | hc
  · decide
  · rw [List.eq_of_mem_replicate hc]
    decide

/-- A blank in front is skipped. -/
theorem skip_blank {b : UInt8} (h : isBlankByte b = true) (bytes : Bytes) :
    skipBlanks (b :: bytes) = skipBlanks bytes := by
  rw [skipBlanks, List.dropWhile_cons, if_pos h, skipBlanks]

/-- What is not blank stops the skipping. -/
theorem skip_visible {b : UInt8} (h : isBlankByte b = false) (bytes : Bytes) :
    skipBlanks (b :: bytes) = b :: bytes := by
  rw [skipBlanks, List.dropWhile_cons, h]
  rfl

/-- The blanks of a gap are single bytes, and the reader takes these for blanks. -/
theorem blank_cases {c : Char} (h : c ∈ [' ', '\n', '\t', '\r']) :
    c.toNat < 128 ∧ isBlankByte (byte c) = true := by
  simp only [List.mem_cons, List.not_mem_nil, or_false] at h
  rcases h with rfl | rfl | rfl | rfl <;> decide

/-- Blanks in front are passed over. -/
theorem skip_gap {gap : List Char} (h : IsGap gap) (rest : Bytes) :
    skipBlanks (bytesOf gap ++ rest) = skipBlanks rest := by
  induction gap with
  | nil => rfl
  | cons c more ih =>
      obtain ⟨hascii, hblank⟩ := blank_cases (h c List.mem_cons_self)
      rw [bytes_of_ascii hascii, List.cons_append, skip_blank hblank,
        ih fun d hd => h d (List.mem_cons_of_mem _ hd)]

/-- What begins with a blank, a comma or a closing bracket goes on no numeral. -/
theorem ends_of_front {b : UInt8} (h : isBlankByte b = true ∨ b = byte ',' ∨ b = byte ']' ∨
    b = byte '\x7d') (rest : Bytes) : Ends (b :: rest) := by
  have hfront : isDigitByte b = false ∧ b ≠ byte '.' ∧ ¬ (b = byte 'e' ∨ b = byte 'E') := by
    simp only [isBlankByte, Bool.or_eq_true, decide_eq_true_eq] at h
    rcases h with (((rfl | rfl) | rfl) | rfl) | rfl | rfl | rfl <;> decide
  constructor
  · rintro _ ⟨⟩
    exact hfront.1
  · rintro _ ⟨⟩
    exact hfront.2.1
  · rintro _ ⟨⟩
    exact hfront.2.2

/-- At the end of the document nothing goes on a numeral. -/
theorem ends_nil : Ends [] := by
  constructor <;> exact fun _ h => nomatch h

/-- A gap goes on no numeral if what follows it does not. -/
theorem gap_ends {gap : List Char} (h : IsGap gap) {rest : Bytes} (hrest : Ends rest) :
    Ends (bytesOf gap ++ rest) := by
  cases gap with
  | nil => exact hrest
  | cons c more =>
      obtain ⟨hascii, hblank⟩ := blank_cases (h c List.mem_cons_self)
      rw [bytes_of_ascii hascii]
      exact ends_of_front (.inl hblank) _

/-- A text has no more characters than bytes. -/
theorem length_le_bytes (cs : List Char) : cs.length ≤ (bytesOf cs).length := by
  induction cs with
  | nil => exact Nat.le_refl _
  | cons c more ih =>
      have hpos := String.length_utf8EncodeChar c
      have hsize := c.utf8Size_pos
      rw [bytes_of_cons, List.length_append, List.length_cons]
      omega

/-! ## The layout of a series -/

section

variable {α : Type} {item : List Char → α → Prop}

/-- The text behind an item up to the closing bracket, and what the items in it stand for. -/
inductive Tail (item : List Char → α → Prop) : List Char → List α → Prop
  | close {gap : List Char} : IsGap gap → Tail item gap []
  | next {before after part text : List Char} {a : α} {more : List α} : IsGap before →
      IsGap after → item part a → Tail item text more →
      Tail item (before ++ ',' :: (after ++ (part ++ text))) (a :: more)

/-- The text between the brackets, and what the items in it stand for. -/
inductive Series (item : List Char → α → Prop) : List Char → List α → Prop
  | empty {gap : List Char} : IsGap gap → Series item gap []
  | items {gap part text : List Char} {a : α} {more : List α} : IsGap gap → item part a →
      Tail item text more → Series item (gap ++ (part ++ text)) (a :: more)

/-- What is known of each part of a series, which is no longer than the whole, is known of the
series. -/
theorem Tail.imp {item' : List Char → α → Prop} {text : List Char} {items : List α}
    (h : Tail item text items)
    (himp : ∀ part a, part.length ≤ text.length → item part a → item' part a) :
    Tail item' text items := by
  induction h with
  | close hgap => exact .close hgap
  | next hbefore hafter hpart _ ih =>
      simp only [List.length_append, List.length_cons] at himp
      refine .next hbefore hafter (himp _ _ (by omega) hpart) (ih fun part a hlength => ?_)
      exact himp part a (by omega)

/-- What is known of each item of a series is known of the series. -/
theorem Series.imp {item' : List Char → α → Prop} {text : List Char} {items : List α}
    (h : Series item text items)
    (himp : ∀ part a, part.length ≤ text.length → item part a → item' part a) :
    Series item' text items := by
  cases h with
  | empty hgap => exact .empty hgap
  | items hgap hpart htail =>
      simp only [List.length_append] at himp
      refine .items hgap (himp _ _ (by omega) hpart) (htail.imp fun part a hlength => ?_)
      exact himp part a (by omega)

/-- What follows an item goes on no numeral. -/
theorem Tail.ends {text : List Char} {items : List α} (h : Tail item text items) {rest : Bytes}
    (hrest : Ends rest) : Ends (bytesOf text ++ rest) := by
  cases h with
  | close hgap => exact gap_ends hgap hrest
  | next hbefore =>
      rw [bytes_of_append, List.append_assoc, bytes_of_ascii (by decide)]
      exact gap_ends hbefore (ends_of_front (.inr (.inl rfl)) _)

/-- Each item behind another one has a comma of its own. -/
theorem Tail.length_le {text : List Char} {items : List α} (h : Tail item text items) :
    items.length ≤ text.length := by
  induction h with
  | close => exact Nat.zero_le _
  | next _ _ _ _ ih =>
      simp only [List.length_append, List.length_cons]
      omega

/-- All items but the first have a comma of their own. -/
theorem Series.length_le {text : List Char} {items : List α} (h : Series item text items) :
    items.length ≤ text.length + 1 := by
  cases h with
  | empty => exact Nat.zero_le _
  | items _ _ htail =>
      have := htail.length_le
      simp only [List.length_append, List.length_cons]
      omega

/-- There are no more items than bytes. -/
theorem Series.length_lt {text : List Char} {items : List α} (h : Series item text items)
    (b : UInt8) (rest : Bytes) : items.length < (bytesOf text ++ b :: rest).length + 1 := by
  have hitems := h.length_le
  have htext := length_le_bytes text
  rw [List.length_append, List.length_cons]
  omega

/-- The first part has no comma before it, the others have. -/
theorem commas_cons (part : List Char) (more : List (List Char)) :
    commas (part :: more) = part ++ more.flatMap fun other => ',' :: other := by
  induction more generalizing part with
  | nil => exact (List.append_nil part).symm
  | cons other more ih =>
      show part ++ ',' :: commas (other :: more) = _
      rw [ih, List.flatMap_cons, List.cons_append]

/-- Parts on lines of their own are a series. -/
theorem spread_series {parts : List (List Char)} {items : List α}
    (h : List.Forall₂ item parts items) (first last : Char) (depth : Nat) :
    ∃ text, spread first last depth parts = first :: (text ++ [last]) ∧
      Series item text items := by
  cases h with
  | nil => exact ⟨[], rfl, .empty .nil⟩
  | cons hpart hmore =>
      rename_i part a parts items
      have htail : Tail item ((parts.map fun part => newLine (depth + 1) ++ part).flatMap
          (fun other => ',' :: other) ++ newLine depth) items := by
        clear hpart
        induction hmore with
        | nil => exact .close (new_line_gap depth)
        | cons hpart _ ih =>
            rw [List.map_cons, List.flatMap_cons, List.append_assoc]
            have hnext := Tail.next .nil (new_line_gap (depth + 1)) hpart ih
            rw [List.nil_append, ← List.append_assoc] at hnext
            exact hnext
      refine ⟨_, ?_, .items (new_line_gap (depth + 1)) hpart htail⟩
      rw [spread, if_neg (List.cons_ne_nil _ _), List.map_cons, commas_cons]
      simp only [List.append_assoc]

end

/-! ## Reading a series -/

/-- The text begins with an ASCII character that is neither blank nor the end of an array. -/
def Opens (text : List Char) : Prop :=
  ∃ c more, text = c :: more ∧ c.toNat < 128 ∧ isBlankByte (byte c) = false ∧ byte c ≠ byte ']'

/-- The front of an item is one byte that neither is blank nor closes the array. -/
theorem Opens.front {text : List Char} (h : Opens text) :
    ∃ b more, bytesOf text = b :: more ∧ isBlankByte b = false ∧ b ≠ byte ']' := by
  obtain ⟨c, more, rfl, hascii, hblank, hbracket⟩ := h
  exact ⟨byte c, bytesOf more, bytes_of_ascii hascii more, hblank, hbracket⟩

/-- The bracket ends an array, behind any gap. -/
theorem next_item_close {gap : List Char} (h : IsGap gap) (first : Bool) (rest : Bytes) :
    ConfigField.nextItem first (bytesOf gap ++ byte ']' :: rest) =
      .ok (false, byte ']' :: rest) := by
  rw [ConfigField.nextItem, skip_gap h, skip_visible (by decide)]
  rfl

/-- The first item comes without a comma. -/
theorem next_item_first {gap text : List Char} (hgap : IsGap gap) (h : Opens text)
    (rest : Bytes) : ConfigField.nextItem true (bytesOf gap ++ (bytesOf text ++ rest)) =
      .ok (true, bytesOf text ++ rest) := by
  obtain ⟨b, more, hbytes, hblank, hbracket⟩ := h.front
  rw [ConfigField.nextItem, skip_gap hgap, hbytes, List.cons_append, skip_visible hblank]
  dsimp only
  rw [if_neg hbracket, if_pos rfl]

/-- An item that is not the first comes behind a comma. -/
theorem next_item_more {before after text : List Char} (hbefore : IsGap before)
    (hafter : IsGap after) (h : Opens text) (rest : Bytes) :
    ConfigField.nextItem false
      (bytesOf before ++ byte ',' :: (bytesOf after ++ (bytesOf text ++ rest))) =
      .ok (true, bytesOf text ++ rest) := by
  obtain ⟨b, more, hbytes, hblank, hbracket⟩ := h.front
  have hcomma : byte ',' ≠ byte ']' := by decide
  rw [ConfigField.nextItem, skip_gap hbefore, skip_visible (by decide)]
  dsimp only
  rw [if_neg hcomma, if_neg (by decide), if_pos rfl, skip_gap hafter, hbytes, List.cons_append,
    skip_visible hblank]
  dsimp only
  rw [if_neg hbracket]

/-- The bracket that ends the items is taken. -/
theorem close_array (rest : Bytes) : ConfigField.closeArray (byte ']' :: rest) = .ok rest := by
  rw [ConfigField.closeArray, skip_visible (by decide)]
  rfl

/-- A bracket goes on no numeral. -/
theorem bracket_ends (rest : Bytes) : Ends (byte ']' :: rest) :=
  ends_of_front (.inr (.inr (.inl rfl))) rest

/-- A brace goes on no numeral. -/
theorem brace_ends (rest : Bytes) : Ends (byte '\x7d' :: rest) :=
  ends_of_front (.inr (.inr (.inr rfl))) rest

section

variable {α β : Type}

/-- The text of an item gives what the item is judged to give, or nothing, whatever follows it
that does not go on a numeral. -/
structure Judged (read : Bytes → Except ReadFault (α × Bytes)) (judge : β → Option α)
    (text : List Char) (b : β) : Prop where
  opens : Opens text
  reads : ∀ rest, Ends rest → (read (bytesOf text ++ rest)).toOption = (judge b).map (·, rest)

/-- The text is read as `a`, whatever follows it that does not go on a numeral. Its first
character is not taken for the end of an array. -/
structure Written (read : Bytes → Except ReadFault (α × Bytes)) (text : List Char) (a : α) :
    Prop where
  opens : Opens text
  reads : ∀ rest, Ends rest → read (bytesOf text ++ rest) = .ok (a, rest)

variable {item : Bytes → Except ReadFault (α × Bytes)} {judge : β → Option α} {text : List Char}

/-- An item that is read as what it stands for is judged to be this. -/
theorem Written.judged {a : α} (h : Written item text a) : Judged item some text a where
  opens := h.opens
  reads rest hrest := Except.to_option_eq_some_iff.2 (h.reads rest hrest)

/-- An item and those behind it are read when an item is next and those behind it are read. -/
theorem read_items_step {b : β} {more : List β} (hpart : Judged item judge text b) {first : Bool}
    {bytes behind after : Bytes} {fuel : Nat}
    (hnext : ConfigField.nextItem first bytes = .ok (true, bytesOf text ++ behind))
    (hends : Ends behind)
    (hmore : (readItems item fuel false behind).toOption = (more.mapM judge).map (·, after)) :
    (readItems item (fuel + 1) first bytes).toOption =
      ((b :: more).mapM judge).map (·, after) := by
  rw [readItems, hnext]
  show (item _ >>= _).toOption = _
  rw [Except.to_option_bind, hpart.reads _ hends, List.mapM_cons]
  cases judge b with
  | none => rfl
  | some a =>
      show (readItems item fuel false _ >>= _).toOption = _
      rw [Except.to_option_bind, hmore]
      cases more.mapM judge <;> rfl

/-- The items behind an item are read to the closing bracket. -/
theorem read_items_tail {items : List β} (h : Tail (Judged item judge) text items) {fuel : Nat}
    (hfuel : items.length < fuel) (rest : Bytes) :
    (readItems item fuel false (bytesOf text ++ byte ']' :: rest)).toOption =
      (items.mapM judge).map (·, byte ']' :: rest) := by
  induction h generalizing fuel with
  | close hgap =>
      obtain ⟨fuel, rfl⟩ := Nat.exists_eq_add_one.2 (Nat.zero_lt_of_lt hfuel)
      rw [readItems, next_item_close hgap]
      rfl
  | next hbefore hafter hpart htail ih =>
      obtain ⟨fuel, rfl⟩ := Nat.exists_eq_add_one.2 (Nat.zero_lt_of_lt hfuel)
      rw [List.length_cons, Nat.add_lt_add_iff_right] at hfuel
      simp only [bytes_of_append, bytes_of_ascii (show (',').toNat < 128 by decide),
        List.append_assoc, List.cons_append]
      exact read_items_step hpart (next_item_more hbefore hafter hpart.opens _)
        (htail.ends (bracket_ends rest)) (ih hfuel)

/-- The items of an array are read to its closing bracket. -/
theorem read_items_judged {items : List β} (h : Series (Judged item judge) text items)
    {fuel : Nat} (hfuel : items.length < fuel) (rest : Bytes) :
    (readItems item fuel true (bytesOf text ++ byte ']' :: rest)).toOption =
      (items.mapM judge).map (·, byte ']' :: rest) := by
  obtain ⟨fuel, rfl⟩ := Nat.exists_eq_add_one.2 (Nat.zero_lt_of_lt hfuel)
  cases h with
  | empty hgap =>
      rw [readItems, next_item_close hgap]
      rfl
  | items hgap hpart htail =>
      rw [List.length_cons, Nat.add_lt_add_iff_right] at hfuel
      simp only [bytes_of_append, List.append_assoc]
      exact read_items_step hpart (next_item_first hgap hpart.opens _)
        (htail.ends (bracket_ends rest)) (read_items_tail htail hfuel rest)

/-- Items that are written are read. -/
theorem read_items_series {items : List α} (h : Series (Written item) text items) {fuel : Nat}
    (hfuel : items.length < fuel) (rest : Bytes) :
    readItems item fuel true (bytesOf text ++ byte ']' :: rest) =
      .ok (items, byte ']' :: rest) := by
  have hread := read_items_judged (h.imp fun _ _ _ => Written.judged) hfuel rest
  have hall : items.mapM some = some items :=
    (List.mapM_pure (f := id)).trans (congrArg some (List.map_id items))
  rw [hall] at hread
  exact Except.to_option_eq_some_iff.1 hread

end

/-! ## Reading fields -/

section

variable {α β : Type}

/-- A text of a string begins with a quote, and behind that the string is read. -/
theorem IsString.front {text : List Char} {s : String} (h : IsString text s) (rest : Bytes) :
    ∃ inner, bytesOf text ++ rest = byte '"' :: inner ∧ readString inner = .ok (s, rest) := by
  obtain ⟨inner, rfl, hinner⟩ := h
  refine ⟨_, ?_, read_string_spelled hinner rest⟩
  rw [bytes_of_ascii (by decide), bytes_of_append, List.cons_append, List.append_assoc]
  rfl

/-- A key is read in any of its spellings. -/
theorem key_spelled {text : List Char} {key : String} (h : IsString text key) (rest : Bytes) :
    ConfigDraft.nextKey.key (bytesOf text ++ rest) = .ok (some key, rest) := by
  obtain ⟨inner, hbytes, hread⟩ := h.front rest
  rw [hbytes, ConfigDraft.nextKey.key, if_pos rfl, hread]

/-- The brace ends an object, behind any gap. -/
theorem next_key_close {gap : List Char} (h : IsGap gap) (first : Bool) (rest : Bytes) :
    ConfigDraft.nextKey first (bytesOf gap ++ byte '\x7d' :: rest) = .ok (none, rest) := by
  rw [ConfigDraft.nextKey, skip_gap h, skip_visible (by decide)]
  rfl

/-- The first key comes without a comma. -/
theorem next_key_first {gap text : List Char} (hgap : IsGap gap) {key : String}
    (h : IsString text key) (rest : Bytes) :
    ConfigDraft.nextKey true (bytesOf gap ++ (bytesOf text ++ rest)) = .ok (some key, rest) := by
  have hbrace : byte '"' ≠ byte '\x7d' := by decide
  have hkey := key_spelled h rest
  obtain ⟨inner, hbytes, -⟩ := h.front rest
  rw [hbytes] at hkey ⊢
  rw [ConfigDraft.nextKey, skip_gap hgap, skip_visible (by decide)]
  dsimp only
  rw [if_neg hbrace, if_pos rfl, hkey]

/-- A key that is not the first comes behind a comma. -/
theorem next_key_more {before after text : List Char} (hbefore : IsGap before)
    (hafter : IsGap after) {key : String} (h : IsString text key) (rest : Bytes) :
    ConfigDraft.nextKey false
      (bytesOf before ++ byte ',' :: (bytesOf after ++ (bytesOf text ++ rest))) =
      .ok (some key, rest) := by
  have hcomma : byte ',' ≠ byte '\x7d' := by decide
  have hbrace : byte '"' ≠ byte '\x7d' := by decide
  have hkey := key_spelled h rest
  obtain ⟨inner, hbytes, -⟩ := h.front rest
  rw [hbytes] at hkey ⊢
  rw [ConfigDraft.nextKey, skip_gap hbefore, skip_visible (by decide)]
  dsimp only
  rw [if_neg hcomma, if_neg (by decide), if_pos rfl, skip_gap hafter, skip_visible (by decide)]
  dsimp only
  rw [if_neg hbrace, hkey]

/-- A colon is read after any blanks. -/
theorem colon_read {gap : List Char} (h : IsGap gap) (rest : Bytes) :
    ConfigDraft.colon (bytesOf gap ++ byte ':' :: rest) = .ok rest := by
  rw [ConfigDraft.colon, skip_gap h, skip_visible (by decide)]
  rfl

/-- The text of a field: its key in quotes, a colon between blanks, and its value. -/
inductive Member (value : List Char → β → Prop) : List Char → String × β → Prop
  | field {keyText before after text : List Char} {key : String} {b : β} : IsString keyText key →
      IsGap before → IsGap after → value text b →
      Member value (keyText ++ (before ++ ':' :: (after ++ text))) (key, b)

/-- What is known of the value of a member is known of the member. -/
theorem Member.imp {value value' : List Char → β → Prop} {text : List Char} {entry : String × β}
    (h : Member value text entry)
    (himp : ∀ part b, part.length ≤ text.length → value part b → value' part b) :
    Member value' text entry := by
  cases h with
  | field hkey hbefore hafter hvalue =>
      refine .field hkey hbefore hafter (himp _ _ ?_ hvalue)
      simp only [List.length_append, List.length_cons]
      omega

/-- What stands behind the key of a field changes what is read so far as the field is judged to
change it, whatever follows it that does not go on a numeral. -/
inductive JudgedField (field : α → String → Bytes → Except ReadFault (α × Bytes))
    (judge : α → String × β → Option α) : List Char → String × β → Prop
  | key {keyText behind : List Char} {key : String} {b : β} : IsString keyText key →
      (∀ a rest, Ends rest → (field a key (bytesOf behind ++ rest)).toOption =
        (judge a (key, b)).map (·, rest)) →
      JudgedField field judge (keyText ++ behind) (key, b)

variable {field : α → String → Bytes → Except ReadFault (α × Bytes)}
  {judge : α → String × β → Option α} {text : List Char} {entries : List (String × β)}

/-- A field is taken into account when its key is next, and then those behind it are. -/
theorem read_members_step {key : String} {b : β} {more : List (String × β)} {first : Bool}
    {bytes behind valued after : Bytes} {fuel : Nat} {a : α}
    (hnext : ConfigDraft.nextKey first bytes = .ok (some key, valued))
    (hfield : (field a key valued).toOption = (judge a (key, b)).map (·, behind))
    (hmore : ∀ a', (readMembers field fuel false a' behind).toOption =
      (more.foldlM judge a').map (·, after)) :
    (readMembers field (fuel + 1) first a bytes).toOption =
      (((key, b) :: more).foldlM judge a).map (·, after) := by
  rw [readMembers, hnext]
  show (field a _ _ >>= _).toOption = _
  rw [Except.to_option_bind, hfield, List.foldlM_cons]
  cases judge a (key, b) with
  | none => rfl
  | some a' => exact hmore a'

/-- The fields behind a field are read to the closing brace. -/
theorem read_members_tail (h : Tail (JudgedField field judge) text entries) {fuel : Nat}
    (hfuel : entries.length < fuel) (a : α) (rest : Bytes) :
    (readMembers field fuel false a (bytesOf text ++ byte '\x7d' :: rest)).toOption =
      (entries.foldlM judge a).map (·, rest) := by
  induction h generalizing fuel a with
  | close hgap =>
      obtain ⟨fuel, rfl⟩ := Nat.exists_eq_add_one.2 (Nat.zero_lt_of_lt hfuel)
      rw [readMembers, next_key_close hgap]
      rfl
  | next hbefore hafter hpart htail ih =>
      obtain ⟨fuel, rfl⟩ := Nat.exists_eq_add_one.2 (Nat.zero_lt_of_lt hfuel)
      rw [List.length_cons, Nat.add_lt_add_iff_right] at hfuel
      obtain ⟨hkey, hfield⟩ := hpart
      simp only [bytes_of_append, bytes_of_ascii (show (',').toNat < 128 by decide),
        List.append_assoc, List.cons_append]
      exact read_members_step (next_key_more hbefore hafter hkey _)
        (hfield a _ (htail.ends (brace_ends rest))) (ih hfuel)

/-- The fields of an object are read to its closing brace. -/
theorem read_members_judged (h : Series (JudgedField field judge) text entries) {fuel : Nat}
    (hfuel : entries.length < fuel) (a : α) (rest : Bytes) :
    (readMembers field fuel true a (bytesOf text ++ byte '\x7d' :: rest)).toOption =
      (entries.foldlM judge a).map (·, rest) := by
  obtain ⟨fuel, rfl⟩ := Nat.exists_eq_add_one.2 (Nat.zero_lt_of_lt hfuel)
  cases h with
  | empty hgap =>
      rw [readMembers, next_key_close hgap]
      rfl
  | items hgap hpart htail =>
      rw [List.length_cons, Nat.add_lt_add_iff_right] at hfuel
      obtain ⟨hkey, hfield⟩ := hpart
      simp only [bytes_of_append, List.append_assoc]
      exact read_members_step (next_key_first hgap hkey _)
        (hfield a _ (htail.ends (brace_ends rest)))
        fun a' => read_members_tail htail hfuel a' rest

end

end RobotBench.Json
