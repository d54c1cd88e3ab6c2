import RobotBench.Proofs.Json.Grammar

/-!
# Documents that read back

The text of a document on several lines is a JSON text, and reading it gives the document back,
`read_pretty`: every string character for character, every whole number, every finite number,
and every item and field in its place. A number that is not finite has no numeral in JSON; it
is written as null and read as such (`shown`).
-/

namespace RobotBench.Json

/-! ## What a text shows -/

mutual

/-- The document with null for every number that is not finite. -/
def shown : Json → Json
  | null => .null
  | bool b => .bool b
  | natural n => .natural n
  | number x => if x.isFinite then .number x else .null
  | text s => .text s
  | array items => .array (shownItems items)
  | object fields => .object (shownFields fields)
  termination_by structural document => document

/-- What the texts of items show. -/
def shownItems : List Json → List Json
  | [] => []
  | item :: more => shown item :: shownItems more
  termination_by structural items => items

/-- What the texts of fields show. -/
def shownFields : List (String × Json) → List (String × Json)
  | [] => []
  | field :: more => shownField field :: shownFields more
  termination_by structural fields => fields

/-- What the text of a field shows. -/
def shownField : String × Json → String × Json
  | (key, value) => (key, shown value)
  termination_by structural field => field

end

/-- The items of an array are shown one by one. -/
theorem shown_items_eq (items : List Json) : shownItems items = items.map shown := by
  induction items with
  | nil => rfl
  | cons item more ih => rw [shownItems, ih, List.map_cons]

/-- The fields of an object are shown one by one, under their keys. -/
theorem shown_fields_eq (fields : List (String × Json)) :
    shownFields fields = fields.map fun field => (field.1, shown field.2) := by
  induction fields with
  | nil => rfl
  | cons field more ih =>
      obtain ⟨key, value⟩ := field
      rw [shownFields, ih, List.map_cons, shownField]

/-! ## Reading a text -/

/-- Blanks before a document are passed over. -/
theorem read_value_gap {gap : List Char} (h : IsGap gap) (fuel : Nat) (rest : Bytes) :
    readValue fuel (bytesOf gap ++ rest) = readValue fuel rest := by
  cases fuel with
  | zero => rfl
  | succ fuel => rw [readValue, readValue, skip_gap h]

/-- A document that begins neither with a digit nor with a minus is read from its front. -/
theorem read_value_front {c : Char} {head : Head} {bytes rest : Bytes}
    (hc : isBlankByte (byte c) = false ∧ byte c ≠ byte '-' ∧ isDigitByte (byte c) = false)
    (h : Head.read (byte c :: bytes) = .ok (head, rest)) (fuel : Nat) :
    readValue (fuel + 1) (byte c :: bytes) = ofHead (readValue fuel) rest head := by
  obtain ⟨hblank, hminus, hdigit⟩ := hc
  rw [readValue, skip_visible hblank]
  dsimp only
  rw [if_neg hminus, hdigit, if_neg Bool.false_ne_true, ConfigField.front, h]
  rfl

/-- The word for null is read. -/
theorem read_value_null (fuel : Nat) (rest : Bytes) :
    readValue (fuel + 1) (bytesOf "null".toList ++ rest) = .ok (.null, rest) := by
  rw [bytes_of_ascii_all (by decide)]
  exact read_value_front (by decide) (head_null rest) fuel

/-- The words for truth and falsehood are read. -/
theorem read_value_bool (b : Bool) (fuel : Nat) (rest : Bytes) :
    readValue (fuel + 1) (bytesOf (ofBool b) ++ rest) = .ok (.bool b, rest) := by
  cases b with
  | true =>
      rw [ofBool, if_pos rfl, bytes_of_ascii_all (by decide)]
      exact read_value_front (by decide) (head_true rest) fuel
  | false =>
      rw [ofBool, if_neg (by decide), bytes_of_ascii_all (by decide)]
      exact read_value_front (by decide) (head_false rest) fuel

/-- A text is read in any of its spellings. -/
theorem read_value_string {text : List Char} {s : String} (h : IsString text s) (fuel : Nat)
    (rest : Bytes) : readValue (fuel + 1) (bytesOf text ++ rest) = .ok (.text s, rest) := by
  have hread := head_string h rest
  obtain ⟨inner, hbytes, -⟩ := h.front rest
  rw [hbytes] at hread ⊢
  exact read_value_front (by decide) hread fuel

/-- A numeral is read, with its sign or without one. -/
theorem read_value_numeral {text : List Char} {whole : List Nat} {fraction : Option (List Nat)}
    {power : Option (Bool × List Nat)} (h : IsNumeral text whole fraction power)
    (negative : Bool) (fuel : Nat) {rest : Bytes} (hrest : Ends rest) :
    readValue (fuel + 1) (bytesOf (if negative then '-' :: text else text) ++ rest) =
      .ok (numeral negative whole fraction power, rest) := by
  have hread := read_numeral_parts h negative hrest
  cases negative with
  | true =>
      rw [if_pos rfl, bytes_of_ascii (by decide), List.cons_append, readValue,
        skip_visible (by decide)]
      dsimp only
      rw [if_pos rfl, hread]
      rfl
  | false =>
      obtain ⟨c, more, rfl, hc⟩ := h.front
      obtain ⟨hascii, -⟩ := digit_opens hc
      obtain ⟨hblank, -, -, -, hminus, -⟩ := digit_front hc
      rw [bytes_of_ascii hascii, List.cons_append] at hread
      rw [if_neg Bool.false_ne_true, bytes_of_ascii hascii, List.cons_append, readValue,
        skip_visible hblank]
      dsimp only
      rw [if_neg hminus, if_pos (digit_byte hc).1, hread]
      rfl

/-- An array is read when its items are. -/
theorem read_value_array {fuel : Nat} {text : List Char} {items : List Json}
    (h : Series (Written (readValue fuel)) text items) (rest : Bytes) :
    readValue (fuel + 1) (bytesOf ('[' :: (text ++ [']'])) ++ rest) = .ok (.array items, rest) := by
  rw [bracketed_bytes (by decide) (by decide), read_value_front (by decide) (head_array _), ofHead,
    read_items_series h (h.length_lt _ _)]
  show (do let rest ← ConfigField.closeArray (byte ']' :: rest); _) = _
  rw [close_array]
  rfl

/-- The field is put behind those before it. -/
theorem member_judged {fuel : Nat} {text : List Char} {entry : String × Json}
    (h : Member (Written (readValue fuel)) text entry) :
    JudgedField (member (readValue fuel)) (fun fields entry => some (fields ++ [entry]))
      text entry := by
  cases h with
  | field hkey hbefore hafter hvalue =>
      refine .key hkey fun fields rest hrest => ?_
      rw [member, bytes_of_append, bytes_of_ascii (by decide), bytes_of_append,
        List.append_assoc, List.cons_append, List.append_assoc, colon_read hbefore]
      show (readValue fuel _ >>= _).toOption = _
      rw [read_value_gap hafter, hvalue.reads rest hrest]
      rfl

/-- Fields that are read one after another are put in a row. -/
theorem members_judged (fields done : List (String × Json)) :
    fields.foldlM (fun fields entry => some (fields ++ [entry])) done = some (done ++ fields) := by
  induction fields generalizing done with
  | nil => rw [List.append_nil]; rfl
  | cons entry more ih =>
      rw [List.foldlM_cons]
      refine (ih (done ++ [entry])).trans ?_
      rw [List.append_assoc, List.singleton_append]

/-- An object is read when its fields are. -/
theorem read_value_object {fuel : Nat} {text : List Char} {fields : List (String × Json)}
    (h : Series (Member (Written (readValue fuel))) text fields) (rest : Bytes) :
    readValue (fuel + 1) (bytesOf ('\x7b' :: (text ++ ['\x7d'])) ++ rest) =
      .ok (.object fields, rest) := by
  have hread := read_members_judged (h.imp fun _ _ _ => member_judged)
    (h.length_lt (byte '\x7d') rest) [] rest
  rw [members_judged, List.nil_append] at hread
  rw [bracketed_bytes (by decide) (by decide), read_value_front (by decide) (head_object _), ofHead,
    Except.to_option_eq_some_iff.1 hread]
  rfl

/-- A text of a document is read as the document. -/
theorem IsText.written {fuel : Nat} {text : List Char} {j : Json} (h : IsText text j)
    (hfuel : text.length < fuel) : Written (readValue fuel) text j := by
  induction fuel generalizing text j with
  | zero => cases hfuel
  | succ fuel ih =>
      refine ⟨h.opens, fun rest hrest => ?_⟩
      -- what stands between brackets is shorter by both of them
      cases h with
      | null => exact read_value_null fuel rest
      | bool b => exact read_value_bool b fuel rest
      | numeral negative hnumeral => exact read_value_numeral hnumeral negative fuel hrest
      | string hstring => exact read_value_string hstring fuel rest
      | array hitems =>
          simp only [List.length_cons, List.length_append] at hfuel
          exact read_value_array (hitems.imp fun part j hlength hpart => ih hpart (by omega)) rest
      | object hfields =>
          simp only [List.length_cons, List.length_append] at hfuel
          refine read_value_object (hfields.imp fun part entry hlength hpart => ?_) rest
          exact hpart.imp fun text j hvalue htext => ih htext (by omega)

/-- A document is read from any of its texts. -/
theorem read_document {text : List Char} {j : Json} (h : IsDocument text j) :
    read (bytesOf text) = .ok j := by
  obtain ⟨before, inner, after, rfl, hbefore, hafter, htext⟩ := h
  have hlength : inner.length < (bytesOf (before ++ (inner ++ after))).length + 1 := by
    have := length_le_bytes (before ++ (inner ++ after))
    simp only [List.length_append] at this
    omega
  have hrest := gap_ends hafter ends_nil
  have hskip := skip_gap hafter []
  rw [List.append_nil] at hrest hskip
  have hread := (htext.written hlength).reads _ hrest
  rw [← read_value_gap hbefore, ← bytes_of_append, ← bytes_of_append] at hread
  rw [read, hread]
  simp only [bind, Except.bind, hskip]
  rfl

/-! ## The layout with a part on each line -/

mutual

/-- The text of a document on several lines is a text of what it shows. -/
theorem pretty_text (depth : Nat) : (j : Json) → IsText (prettyChars depth j) j.shown
  | .null => .null
  | .bool b => .bool b
  | .natural n => by
      obtain ⟨whole, hnumeral, hvalue⟩ := natural_spelled n
      rw [prettyChars, shown, ← hvalue]
      exact .numeral false hnumeral
  | .number x => by
      cases x with
      | nan => exact .null
      | infinite negative => exact .null
      | finite negative m =>
          obtain ⟨text, whole, fraction, power, htext, hnumeral, hvalue⟩ :=
            number_spelled negative m
          show IsText (Number.json (.finite negative m)).toList (.number (.finite negative m))
          rw [htext, ← hvalue]
          exact .numeral negative hnumeral
  | .text s => .string (quote_spelled s)
  | .array items => by
      obtain ⟨text, htext, hseries⟩ :=
        spread_series (pretty_items_text (depth + 1) items) '[' ']' depth
      rw [prettyChars, htext, shown]
      exact .array hseries
  | .object fields => by
      obtain ⟨text, htext, hseries⟩ :=
        spread_series (pretty_fields_text (depth + 1) fields) '\x7b' '\x7d' depth
      rw [prettyChars, htext, shown]
      exact .object hseries

/-- Every item stands for what it shows. -/
theorem pretty_items_text (depth : Nat) : (items : List Json) →
    List.Forall₂ IsText (prettyItems depth items) (shownItems items)
  | [] => .nil
  | item :: more => .cons (pretty_text depth item) (pretty_items_text depth more)

/-- Every field stands for what it shows. -/
theorem pretty_fields_text (depth : Nat) : (fields : List (String × Json)) →
    List.Forall₂ (Member IsText) (prettyFields depth fields) (shownFields fields)
  | [] => .nil
  | field :: more => .cons (pretty_field_text depth field) (pretty_fields_text depth more)

/-- A field has its key, a blank behind the colon and its value. -/
theorem pretty_field_text (depth : Nat) : (field : String × Json) →
    Member IsText (prettyField depth field) (shownField field)
  | (key, value) => .field (quote_spelled key) .nil space_gap (pretty_text depth value)

end

/-- The text of a document on several lines is a JSON text. -/
theorem pretty_document (j : Json) : IsDocument j.pretty.toList j.shown := by
  refine ⟨[], prettyChars 0 j, [], ?_, .nil, .nil, pretty_text 0 j⟩
  rw [pretty, String.toList_ofList, List.nil_append, List.append_nil]

/-- The text of a document on several lines is a JSON text, and it is read as what it shows. -/
theorem read_pretty (j : Json) : read j.pretty.toUTF8.data.toList = .ok j.shown := by
  have hread := read_document (pretty_document j)
  rw [← String.ofList_toList (s := j.pretty), text_bytes]
  exact hread

end RobotBench.Json
