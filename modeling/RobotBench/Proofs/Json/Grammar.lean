import RobotBench.Proofs.Json.Series

/-!
# The texts of documents

`IsText` is the grammar of JSON. A document has many texts: there may be blanks between its parts,
strings may be spelled with escapes, and numerals may have zeros at their end. An escape for one
half of a pair stands for no character, so that there is no string with such a text. Of a value
the reader of settings sees the front, which says what a scalar is (`front_read`), and shows
everything else not to be one (`front_vague`).
-/

namespace RobotBench.Json

/-- The text is one of the document. -/
inductive IsText : List Char → Json → Prop
  | null : IsText "null".toList .null
  | bool (b : Bool) : IsText (ofBool b) (.bool b)
  | numeral {text : List Char} {whole : List Nat} {fraction : Option (List Nat)}
      {power : Option (Bool × List Nat)} (negative : Bool) :
      IsNumeral text whole fraction power →
      IsText (if negative then '-' :: text else text) (numeral negative whole fraction power)
  | string {text : List Char} {s : String} : IsString text s → IsText text (.text s)
  | array {text : List Char} {items : List Json} : Series IsText text items →
      IsText ('[' :: (text ++ [']'])) (.array items)
  | object {text : List Char} {fields : List (String × Json)} :
      Series (Member IsText) text fields → IsText ('\x7b' :: (text ++ ['\x7d'])) (.object fields)

/-- The text is one of the document, with any blanks around it. -/
def IsDocument (text : List Char) (j : Json) : Prop :=
  ∃ before inner after, text = before ++ (inner ++ after) ∧ IsGap before ∧ IsGap after ∧
    IsText inner j

/-! ## Fronts -/

/-- The bytes that are expected are taken. -/
theorem expect_bytes_append (expected rest : Bytes) :
    expectBytes expected (expected ++ rest) = .ok rest := by
  induction expected with
  | nil => rfl
  | cons b more ih => rw [List.cons_append, expectBytes, if_pos rfl, ih]

/-- The front of null is the whole word. -/
theorem head_null (rest : Bytes) :
    Head.read (byte 'n' :: ("ull".toList.map byte ++ rest)) = .ok (.null, rest) := by
  rw [Head.read, skip_visible (by decide)]
  dsimp only
  rw [if_pos rfl, expect_bytes_append]
  rfl

/-- The front of truth is the whole word. -/
theorem head_true (rest : Bytes) :
    Head.read (byte 't' :: ("rue".toList.map byte ++ rest)) = .ok (.bool true, rest) := by
  rw [Head.read, skip_visible (by decide)]
  dsimp only
  rw [if_neg (by decide), if_pos rfl, expect_bytes_append]
  rfl

/-- The front of falsehood is the whole word. -/
theorem head_false (rest : Bytes) :
    Head.read (byte 'f' :: ("alse".toList.map byte ++ rest)) = .ok (.bool false, rest) := by
  rw [Head.read, skip_visible (by decide)]
  dsimp only
  rw [if_neg (by decide), if_neg (by decide), if_pos rfl, expect_bytes_append]
  rfl

/-- The front of an array is its bracket. -/
theorem head_array (rest : Bytes) : Head.read (byte '[' :: rest) = .ok (.array, rest) := by
  rw [Head.read, skip_visible (by decide)]
  rfl

/-- The front of an object is its brace. -/
theorem head_object (rest : Bytes) : Head.read (byte '\x7b' :: rest) = .ok (.object, rest) := by
  rw [Head.read, skip_visible (by decide)]
  rfl

/-- The byte of a digit is taken for nothing else. -/
theorem digit_front {c : Char} (h : c.isDigit = true) :
    isBlankByte (byte c) = false ∧ byte c ≠ byte 'n' ∧ byte c ≠ byte 't' ∧ byte c ≠ byte 'f' ∧
      byte c ≠ byte '-' ∧ byte c ≠ byte ']' := by
  have hfront : ∀ k < 58, 48 ≤ k → isBlankByte (byte (Char.ofNat k)) = false ∧
      byte (Char.ofNat k) ≠ byte 'n' ∧ byte (Char.ofNat k) ≠ byte 't' ∧
      byte (Char.ofNat k) ≠ byte 'f' ∧ byte (Char.ofNat k) ≠ byte '-' ∧
      byte (Char.ofNat k) ≠ byte ']' := by decide
  obtain ⟨hlow, hhigh⟩ := digit_cases h
  have hc := hfront c.toNat (by omega) hlow
  rw [Char.ofNat_toNat] at hc
  exact hc

/-- The front of a text is the whole text. -/
theorem head_string {text : List Char} {s : String} (h : IsString text s) (rest : Bytes) :
    Head.read (bytesOf text ++ rest) = .ok (.text s, rest) := by
  obtain ⟨inner, hbytes, hread⟩ := h.front rest
  rw [hbytes, Head.read, skip_visible (by decide)]
  dsimp only
  rw [if_neg (by decide), if_neg (by decide), if_neg (by decide), if_neg (by decide),
    if_neg (by decide), if_pos rfl, hread]
  rfl

/-- A digit opens an item. -/
theorem digit_opens {c : Char} (hc : c.isDigit = true) :
    c.toNat < 128 ∧ isBlankByte (byte c) = false ∧ byte c ≠ byte ']' := by
  obtain ⟨hblank, -, -, -, -, hbracket⟩ := digit_front hc
  have := digit_cases hc
  exact ⟨by omega, hblank, hbracket⟩

/-- A numeral begins with a digit. -/
theorem IsNumeral.front {text : List Char} {whole : List Nat} {fraction : Option (List Nat)}
    {power : Option (Bool × List Nat)} (h : IsNumeral text whole fraction power) :
    ∃ c more, text = c :: more ∧ c.isDigit = true := by
  obtain ⟨hrow, -, -, -⟩ := h
  obtain ⟨c, more, rfl⟩ := List.exists_cons_of_ne_nil hrow.1
  exact ⟨c, _, rfl, hrow.2 c List.mem_cons_self⟩

/-- The front of a numeral is what the reader of numbers makes of it. -/
theorem head_numeral {text : List Char} {whole : List Nat} {fraction : Option (List Nat)}
    {power : Option (Bool × List Nat)} (h : IsNumeral text whole fraction power)
    (negative : Bool) (rest : Bytes) :
    Head.read (bytesOf (if negative then '-' :: text else text) ++ rest) =
      readNumber negative (bytesOf text ++ rest) := by
  cases negative with
  | true =>
      rw [if_pos rfl, bytes_of_ascii (by decide), List.cons_append, Head.read,
        skip_visible (by decide)]
      rfl
  | false =>
      obtain ⟨c, more, rfl, hc⟩ := h.front
      obtain ⟨hascii, -⟩ := digit_opens hc
      obtain ⟨hblank, hn, ht, hf, hminus, -⟩ := digit_front hc
      rw [if_neg Bool.false_ne_true, bytes_of_ascii hascii, List.cons_append, Head.read,
        skip_visible hblank]
      dsimp only
      rw [if_neg hn, if_neg ht, if_neg hf, if_neg hminus, if_pos (digit_byte hc).1]

/-- Every value opens an item. -/
theorem IsText.opens {text : List Char} {j : Json} (h : IsText text j) : Opens text := by
  cases h with
  | null => exact ⟨'n', _, rfl, by decide⟩
  | bool b =>
      cases b with
      | true => exact ⟨'t', _, rfl, by decide⟩
      | false => exact ⟨'f', _, rfl, by decide⟩
  | numeral negative hnumeral =>
      cases negative with
      | true => exact ⟨'-', _, rfl, by decide⟩
      | false =>
          obtain ⟨c, more, htext, hc⟩ := hnumeral.front
          exact ⟨c, more, htext, digit_opens hc⟩
  | string hstring =>
      obtain ⟨inner, htext, -⟩ := hstring
      exact ⟨'"', _, htext, by decide⟩
  | array => exact ⟨'[', _, rfl, by decide⟩
  | object => exact ⟨'\x7b', _, rfl, by decide⟩

/-- A numeral is a natural number or another number. -/
theorem numeral_cases (negative : Bool) (whole : List Nat) (fraction : Option (List Nat))
    (power : Option (Bool × List Nat)) :
    (∃ n, numeral negative whole fraction power = .natural n) ∨
      ∃ x, numeral negative whole fraction power = .number x := by
  by_cases h : negative = false ∧ fraction = none ∧ power = none
  · obtain ⟨rfl, rfl, rfl⟩ := h
    exact .inl ⟨_, rfl⟩
  · refine .inr ?_
    unfold numeral
    split
    · exact absurd ⟨rfl, rfl, rfl⟩ h
    · exact ⟨_, rfl⟩

/-- The text of an array is a series of texts between brackets. -/
theorem IsText.of_array {text : List Char} {items : List Json} (h : IsText text (.array items)) :
    ∃ inner, text = '[' :: (inner ++ [']']) ∧ Series IsText inner items := by
  generalize hj : Json.array items = j at h
  cases h with
  | numeral negative hnumeral =>
      rcases numeral_cases negative _ _ _ with ⟨n, hn⟩ | ⟨x, hx⟩
      · cases hj.trans hn
      · cases hj.trans hx
  | array hitems =>
      cases hj
      exact ⟨_, rfl, hitems⟩
  | null | bool | string | object => cases hj

/-- The text of an object is a series of fields between braces. -/
theorem IsText.of_object {text : List Char} {fields : List (String × Json)}
    (h : IsText text (.object fields)) :
    ∃ inner, text = '\x7b' :: (inner ++ ['\x7d']) ∧ Series (Member IsText) inner fields := by
  generalize hj : Json.object fields = j at h
  cases h with
  | numeral negative hnumeral =>
      rcases numeral_cases negative _ _ _ with ⟨n, hn⟩ | ⟨x, hx⟩
      · cases hj.trans hn
      · cases hj.trans hx
  | object hfields =>
      cases hj
      exact ⟨_, rfl, hfields⟩
  | null | bool | string | array => cases hj

/-- Brackets are read as bytes. -/
theorem bracketed_bytes {first last : Char} (hfirst : first.toNat < 128) (hlast : last.toNat < 128)
    (inner : List Char) (rest : Bytes) :
    bytesOf (first :: (inner ++ [last])) ++ rest =
      byte first :: (bytesOf inner ++ byte last :: rest) := by
  rw [bytes_of_ascii hfirst, bytes_of_append, bytes_of_ascii hlast, List.cons_append,
    List.append_assoc]
  rfl

/-- What the front of a document says it is, if it says so: null, a Boolean, a string, or a natural
number of 64 bits. -/
def head? : Json → Option Head
  | null => some .null
  | bool b => some (.bool b)
  | natural n => if n < UInt64.size then some (.natural n) else none
  | text s => some (.text s)
  | _ => none

/-- The front says nothing: it is a bracket, or a number that is not a natural number of 64 bits. -/
def Head.IsVague (head : Head) : Prop := head.IsOther ∨ head = .array ∨ head = .object

section

variable {text : List Char} {j : Json} {rest : Bytes}

/-- A front that says what the document is is read. -/
theorem front_read (h : IsText text j) (hrest : Ends rest) {head : Head}
    (hhead : j.head? = some head) : Head.read (bytesOf text ++ rest) = .ok (head, rest) := by
  cases h with
  | null =>
      cases hhead
      rw [bytes_of_ascii_all (by decide)]
      exact head_null rest
  | bool b =>
      cases hhead
      cases b with
      | true =>
          rw [ofBool, if_pos rfl, bytes_of_ascii_all (by decide)]
          exact head_true rest
      | false =>
          rw [ofBool, if_neg Bool.false_ne_true, bytes_of_ascii_all (by decide)]
          exact head_false rest
  | numeral negative hnumeral =>
      rw [head_numeral hnumeral]
      rcases numeral_cases negative _ _ _ with ⟨n, hn⟩ | ⟨x, hx⟩
      · rw [hn, head?] at hhead
        split at hhead
        · rename_i hsmall
          cases hhead
          exact read_number_whole hnumeral hsmall hn hrest
        · cases hhead
      · rw [hx] at hhead
        cases hhead
  | string hstring =>
      cases hhead
      exact head_string hstring rest
  | array => cases hhead
  | object => cases hhead

/-- Any other front is vague. -/
theorem front_vague (h : IsText text j) (hrest : Ends rest) (hnone : j.head? = none) {head : Head}
    {behind : Bytes} (hread : Head.read (bytesOf text ++ rest) = .ok (head, behind)) :
    head.IsVague := by
  cases h with
  | null => cases hnone
  | bool b => cases hnone
  | numeral negative hnumeral =>
      rw [head_numeral hnumeral] at hread
      refine .inl (read_number_other hnumeral (fun n hn heq => ?_) hrest hread)
      rw [heq, head?, if_pos hn] at hnone
      cases hnone
  | string hstring => cases hnone
  | array =>
      rw [bytes_of_ascii (by decide), List.cons_append, head_array] at hread
      cases hread
      exact .inr (.inl rfl)
  | object =>
      rw [bytes_of_ascii (by decide), List.cons_append, head_object] at hread
      cases hread
      exact .inr (.inr rfl)

/-- Only an array begins with the bracket of one. -/
theorem front_array (h : IsText text j) (hrest : Ends rest) {behind : Bytes}
    (hread : Head.read (bytesOf text ++ rest) = .ok (.array, behind)) :
    ∃ items, j = .array items := by
  cases hhead : j.head? with
  | some head =>
      cases (front_read h hrest hhead).symm.trans hread
      unfold head? at hhead
      split at hhead
      · cases hhead
      · cases hhead
      · split at hhead <;> cases hhead
      · cases hhead
      · cases hhead
  | none =>
      cases h with
      | null => cases hhead
      | bool b => cases hhead
      | numeral negative hnumeral =>
          rw [head_numeral hnumeral] at hread
          have hother := read_number_other hnumeral (fun n hn heq => ?_) hrest hread
          · rcases hother with ⟨n, hn⟩ | ⟨x, hx⟩
            · cases hn
            · cases hx
          · rw [heq, head?, if_pos hn] at hhead
            cases hhead
      | string hstring => cases hhead
      | array => exact ⟨_, rfl⟩
      | object =>
          rw [bytes_of_ascii (by decide), List.cons_append, head_object] at hread
          cases hread

end

end RobotBench.Json
