import RobotBench.Json.Basic
import RobotBench.Json.Head

/-!
# Written texts as bytes

A document is written as characters and read as bytes. JSON has several ways to write a character
between quotes: as it is, by an escape of one letter, or by its number, in two halves if need be
(`SpellsChar`). All of them are read as the string that they spell (`read_string_spelled`), and the
way in which documents are written is one of them (`quote_spelled`).
-/

namespace RobotBench.Json

/-! ## Characters and bytes -/

/-- The bytes of characters. -/
def bytesOf (cs : List Char) : Bytes := cs.flatMap String.utf8EncodeChar

@[simp] theorem bytes_of_nil : bytesOf [] = [] := rfl

@[simp] theorem bytes_of_append (cs ds : List Char) :
    bytesOf (cs ++ ds) = bytesOf cs ++ bytesOf ds :=
  List.flatMap_append

theorem bytes_of_cons (c : Char) (cs : List Char) :
    bytesOf (c :: cs) = String.utf8EncodeChar c ++ bytesOf cs :=
  List.flatMap_cons

/-- A character of ASCII is one byte. -/
theorem bytes_of_ascii {c : Char} (h : c.toNat < 128) (cs : List Char) :
    bytesOf (c :: cs) = byte c :: bytesOf cs := by
  have hsize : c.val.toNat ≤ 0x7f := Nat.le_of_lt_succ h
  rw [bytes_of_cons, String.utf8EncodeChar, if_pos hsize]
  rfl

theorem bytes_of_ascii_all {cs : List Char} (h : cs.all (·.toNat < 128) = true) :
    bytesOf cs = cs.map byte := by
  induction cs with
  | nil => rfl
  | cons c more ih =>
      rw [List.all_cons, Bool.and_eq_true, decide_eq_true_eq] at h
      rw [bytes_of_ascii h.1, List.map_cons, ih h.2]

/-- The bytes of a text are those of its characters. -/
theorem text_bytes (cs : List Char) : (String.ofList cs).toUTF8.data.toList = bytesOf cs := by
  show (String.ofList cs).toByteArray.data.toList = _
  rw [String.toByteArray_ofList]
  exact List.toList_data_toByteArray

/-! ## Spellings -/

/-- The hexadecimal digits with their values. -/
def hexDigits : List (Char × Nat) :=
  [('0', 0), ('1', 1), ('2', 2), ('3', 3), ('4', 4), ('5', 5), ('6', 6), ('7', 7), ('8', 8),
    ('9', 9), ('a', 10), ('b', 11), ('c', 12), ('d', 13), ('e', 14), ('f', 15), ('A', 10),
    ('B', 11), ('C', 12), ('D', 13), ('E', 14), ('F', 15)]

/-- The letters of the short escapes with the characters that they stand for. -/
def shortEscapes : List (Char × Char) :=
  [('"', '"'), ('\\', '\\'), ('/', '/'), ('b', '\x08'), ('f', '\x0c'), ('n', '\n'), ('r', '\r'),
    ('t', '\t')]

/-- Four hexadecimal digits with their value. -/
inductive HexFour : List Char → Nat → Prop
  | digits {a b c d : Char} {i j k l : Nat} : (a, i) ∈ hexDigits → (b, j) ∈ hexDigits →
      (c, k) ∈ hexDigits → (d, l) ∈ hexDigits →
      HexFour [a, b, c, d] (((i * 16 + j) * 16 + k) * 16 + l)

/-- The ways to write a character between quotes. What is written by its number is a character,
or half of one beyond the first `2 ^ 16`. -/
inductive SpellsChar : List Char → Char → Prop
  | plain {c : Char} : c ≠ '"' → c ≠ '\\' → 32 ≤ c.toNat → SpellsChar [c] c
  | short {letter c : Char} : (letter, c) ∈ shortEscapes → SpellsChar ['\\', letter] c
  | code {digits : List Char} {n : Nat} : HexFour digits n → n < 0xd800 ∨ 0xdfff < n →
      SpellsChar ('\\' :: 'u' :: digits) (Char.ofNat n)
  | pair {high low : List Char} {m n : Nat} : HexFour high m → HexFour low n →
      0xd800 ≤ m ∧ m ≤ 0xdbff → 0xdc00 ≤ n ∧ n ≤ 0xdfff →
      SpellsChar ('\\' :: 'u' :: (high ++ '\\' :: 'u' :: low))
        (Char.ofNat ((m - 0xd800) * 1024 + (n - 0xdc00) + 0x10000))

/-- The ways to write characters between quotes. -/
inductive Spells : List Char → List Char → Prop
  | nil : Spells [] []
  | cons {part text : List Char} {c : Char} {cs : List Char} : SpellsChar part c →
      Spells text cs → Spells (part ++ text) (c :: cs)

/-- The text is one of the string, in quotes. -/
def IsString (text : List Char) (s : String) : Prop :=
  ∃ inner, text = '"' :: (inner ++ ['"']) ∧ Spells inner s.toList

/-! ## Reading strings -/

/-- A byte that stands for itself inside a string. -/
def isPlainByte (b : UInt8) : Prop := b ≠ byte '"' ∧ b ≠ byte '\\' ∧ ¬ b < 0x20

theorem push_append (done : ByteArray) (b : UInt8) (more : Bytes) :
    done.push b ++ more.toByteArray = done ++ (b :: more).toByteArray := by
  have hfirst : done.push b = done ++ [b].toByteArray :=
    ByteArray.append_toByteArray_singleton.symm
  rw [hfirst, ByteArray.append_assoc, ← List.toByteArray_append, List.singleton_append]

/-- Bytes that stand for themselves are taken over one by one. -/
theorem string_bytes_plain {bytes : Bytes} (h : ∀ b ∈ bytes, isPlainByte b) (fuel : Nat)
    (rest : Bytes) (done : ByteArray) :
    stringBytes (bytes.length + fuel) (bytes ++ rest) done =
      stringBytes fuel rest (done ++ bytes.toByteArray) := by
  induction bytes generalizing done with
  | nil => simp
  | cons b more ih =>
      obtain ⟨hquote, hslash, hcontrol⟩ := h b List.mem_cons_self
      have hmore := ih (fun b hb => h b (List.mem_cons_of_mem _ hb)) (done.push b)
      have hlength : (b :: more).length + fuel = more.length + fuel + 1 := by
        rw [List.length_cons]
        omega
      rw [hlength, List.cons_append, stringBytes, if_neg hquote, if_neg hslash, if_neg hcontrol,
        hmore, push_append]

/-- An escape is taken for the character that it stands for. -/
theorem string_bytes_escaped {bytes rest : Bytes} {c : Char}
    (h : escaped (bytes ++ rest) = .ok (c, rest)) (fuel : Nat) (done : ByteArray) :
    stringBytes (fuel + 1) (byte '\\' :: (bytes ++ rest)) done =
      stringBytes fuel rest (done ++ [c].utf8Encode) := by
  have hquote : byte '\\' ≠ byte '"' := by decide
  rw [stringBytes, if_neg hquote, if_pos rfl, h]
  show stringBytes fuel rest (done ++ (String.singleton c).toByteArray) = _
  rw [String.toByteArray_singleton]

theorem hex_four_read {digits : List Char} {n : Nat} (h : HexFour digits n) (rest : Bytes) :
    hexFour (bytesOf digits ++ rest) = .ok (n, rest) := by
  have hdigit : ∀ p ∈ hexDigits, p.1.toNat < 128 ∧ hexDigit? (byte p.1) = some p.2 := by decide
  obtain ⟨ha, hb, hc, hd⟩ := h
  rw [bytes_of_ascii (hdigit _ ha).1, bytes_of_ascii (hdigit _ hb).1,
    bytes_of_ascii (hdigit _ hc).1, bytes_of_ascii (hdigit _ hd).1]
  show hexFour (byte _ :: byte _ :: byte _ :: byte _ :: rest) = _
  rw [hexFour, (hdigit _ ha).2, (hdigit _ hb).2, (hdigit _ hc).2, (hdigit _ hd).2]

/-- A character written by its number is read. -/
theorem unicode_escape_code {digits : List Char} {n : Nat} (h : HexFour digits n)
    (hn : n < 0xd800 ∨ 0xdfff < n) (rest : Bytes) :
    unicodeEscape (bytesOf digits ++ rest) = .ok (Char.ofNat n, rest) := by
  have htrail : ¬ (0xdc00 ≤ n ∧ n ≤ 0xdfff) := by omega
  have hlead : ¬ (0xd800 ≤ n ∧ n ≤ 0xdbff) := by omega
  rw [unicodeEscape, hex_four_read h]
  show (if _ then _ else _) = _
  rw [if_neg htrail, if_neg hlead]
  rfl

/-- A character written in two halves is read. -/
theorem unicode_escape_pair {high low : List Char} {m n : Nat} (hhigh : HexFour high m)
    (hlow : HexFour low n) (hm : 0xd800 ≤ m ∧ m ≤ 0xdbff) (hn : 0xdc00 ≤ n ∧ n ≤ 0xdfff)
    (rest : Bytes) :
    unicodeEscape (bytesOf (high ++ '\\' :: 'u' :: low) ++ rest) =
      .ok (Char.ofNat ((m - 0xd800) * 1024 + (n - 0xdc00) + 0x10000), rest) := by
  have htrail : ¬ (0xdc00 ≤ m ∧ m ≤ 0xdfff) := by omega
  have hsecond : lowSurrogate (byte '\\' :: byte 'u' :: (bytesOf low ++ rest)) =
      .ok (n, rest) := by
    rw [lowSurrogate, if_neg (not_not_intro rfl), if_neg (not_not_intro rfl), hex_four_read hlow]
    exact if_pos hn
  rw [bytes_of_append, bytes_of_ascii (by decide), bytes_of_ascii (by decide), List.append_assoc,
    unicodeEscape, hex_four_read hhigh]
  show (if _ then _ else _) = _
  rw [if_neg htrail, if_pos hm]
  show (lowSurrogate (byte '\\' :: byte 'u' :: (bytesOf low ++ rest)) >>= _) = _
  rw [hsecond]
  rfl

theorem escaped_unicode {cs : List Char} {rest : Bytes} {c : Char}
    (h : unicodeEscape (bytesOf cs ++ rest) = .ok (c, rest)) :
    escaped (bytesOf ('u' :: cs) ++ rest) = .ok (c, rest) := by
  rw [bytes_of_ascii (by decide), List.cons_append, escaped, if_pos rfl, h]

theorem plain_of_size {n : Nat} (hbyte : n < 256) (hquote : n ≠ 34) (hslash : n ≠ 92)
    (hcontrol : 32 ≤ n) : isPlainByte (UInt8.ofNat n) := by
  have hsize : (UInt8.ofNat n).toNat = n := by
    rw [UInt8.toNat_ofNat']
    exact Nat.mod_eq_of_lt hbyte
  refine ⟨fun h => hquote ?_, fun h => hslash ?_, fun h => ?_⟩
  · rw [← hsize, h]
    rfl
  · rw [← hsize, h]
    rfl
  · have hless : (UInt8.ofNat n).toNat < 32 := h
    omega

/-- The first bit of a byte is set unless the byte is a character of ASCII. -/
theorem utf8_bytes {c : Char} {b : UInt8} (h : b ∈ String.utf8EncodeChar c) :
    b = UInt8.ofNat c.val.toNat ∧ c.val.toNat < 128 ∨
      ∃ n, 128 ≤ n ∧ n < 256 ∧ b = UInt8.ofNat n := by
  unfold String.utf8EncodeChar at h
  dsimp only at h
  split at h
  · exact .inl ⟨List.mem_singleton.1 h, by omega⟩
  · right
    split at h
    · simp only [List.mem_cons, List.not_mem_nil, or_false] at h
      rcases h with rfl | rfl <;> exact ⟨_, by omega, by omega, rfl⟩
    · split at h
      · simp only [List.mem_cons, List.not_mem_nil, or_false] at h
        rcases h with rfl | rfl | rfl <;> exact ⟨_, by omega, by omega, rfl⟩
      · simp only [List.mem_cons, List.not_mem_nil, or_false] at h
        rcases h with rfl | rfl | rfl | rfl <;> exact ⟨_, by omega, by omega, rfl⟩

/-- The bytes of a character that is written as it is stand for themselves. -/
theorem plain_bytes {c : Char} (hquote : c ≠ '"') (hslash : c ≠ '\\') (hcontrol : 32 ≤ c.toNat) :
    ∀ b ∈ String.utf8EncodeChar c, isPlainByte b := by
  have hne {d : Char} (h : c ≠ d) : c.val.toNat ≠ d.toNat := fun heq =>
    h (Char.ext (UInt32.toNat_inj.1 heq))
  intro b hb
  rcases utf8_bytes hb with ⟨rfl, hascii⟩ | ⟨n, hfirst, hbyte, rfl⟩
  · exact plain_of_size (by omega) (hne hquote) (hne hslash) hcontrol
  · exact plain_of_size hbyte (by omega) (by omega) (by omega)

/-- A character that is spelled between quotes is read. It takes no more rounds than bytes. -/
theorem string_bytes_spelled {part : List Char} {c : Char} (h : SpellsChar part c) :
    ∃ rounds, rounds ≤ (bytesOf part).length ∧ ∀ fuel rest done,
      stringBytes (rounds + fuel) (bytesOf part ++ rest) done =
        stringBytes fuel rest (done ++ [c].utf8Encode) := by
  have hslash : ('\\').toNat < 128 := by decide
  cases h with
  | plain hquote hback hcontrol =>
      rw [bytes_of_cons, bytes_of_nil, List.append_nil]
      refine ⟨_, Nat.le_refl _, fun fuel rest done => ?_⟩
      rw [string_bytes_plain (plain_bytes hquote hback hcontrol), List.utf8Encode_singleton]
  | @short letter _ hletter =>
      have hshort : ∀ p ∈ shortEscapes, p.1.toNat < 128 ∧ byte p.1 ≠ byte 'u' ∧
          shortEscape? (byte p.1) = some p.2 := by decide
      obtain ⟨hascii, hcode, hread⟩ := hshort _ hletter
      rw [bytes_of_ascii hslash, bytes_of_ascii hascii]
      refine ⟨1, by simp, fun fuel rest done => ?_⟩
      have hescaped : escaped ([byte letter] ++ rest) = .ok (c, rest) := by
        rw [List.singleton_append, escaped, if_neg hcode, hread]
      rw [Nat.add_comm]
      exact string_bytes_escaped hescaped fuel done
  | code hdigits hn =>
      rw [bytes_of_ascii hslash]
      refine ⟨1, by simp, fun fuel rest done => ?_⟩
      rw [Nat.add_comm]
      exact string_bytes_escaped (escaped_unicode (unicode_escape_code hdigits hn rest)) fuel done
  | pair hhigh hlow hm hn =>
      rw [bytes_of_ascii hslash]
      refine ⟨1, by simp, fun fuel rest done => ?_⟩
      rw [Nat.add_comm]
      exact string_bytes_escaped
        (escaped_unicode (unicode_escape_pair hhigh hlow hm hn rest)) fuel done

/-- The characters that are spelled between quotes are read. -/
theorem string_bytes_read {text cs : List Char} (h : Spells text cs) (rest : Bytes)
    (done : ByteArray) {fuel : Nat} (hfuel : (bytesOf text).length < fuel) :
    stringBytes fuel (bytesOf text ++ byte '"' :: rest) done =
      .ok (done ++ cs.utf8Encode, rest) := by
  induction h generalizing done fuel with
  | nil =>
      obtain ⟨fuel, rfl⟩ := Nat.exists_eq_add_one.2 hfuel
      simp [stringBytes]
  | cons hpart htext ih =>
      obtain ⟨rounds, hrounds, hread⟩ := string_bytes_spelled hpart
      rw [bytes_of_append, List.length_append] at hfuel
      obtain ⟨left, rfl⟩ := Nat.exists_eq_add_of_le (show rounds ≤ fuel by omega)
      rw [bytes_of_append, List.append_assoc, hread, ih _ (by omega), ByteArray.append_assoc,
        ← List.utf8Encode_append, List.singleton_append]

/-- What is spelled between quotes is read as the string. -/
theorem read_string_spelled {text : List Char} {s : String} (h : Spells text s.toList)
    (rest : Bytes) : readString (bytesOf text ++ byte '"' :: rest) = .ok (s, rest) := by
  have hlength : (bytesOf text).length < (bytesOf text ++ byte '"' :: rest).length := by simp
  have hvalid : String.fromUTF8? s.toByteArray = some s := dif_pos s.isValidUTF8
  rw [readString, string_bytes_read h _ _ hlength, ByteArray.empty_append,
    String.utf8Encode_toList]
  simp only [hvalid]

/-! ## Written strings -/

/-- A control character written by its number is spelled. -/
theorem control_spelled {c : Char} (h : c.toNat < 32) :
    SpellsChar ('\\' :: 'u' :: hexPair c) c := by
  have hdigit : ∀ k < 16, (Nat.digitChar k, k) ∈ hexDigits := by decide
  have hzero : ('0', 0) ∈ hexDigits := by decide
  have hfour := HexFour.digits hzero hzero (hdigit (c.toNat / 16) (by omega))
    (hdigit (c.toNat % 16) (by omega))
  have hcode : ((0 * 16 + 0) * 16 + c.toNat / 16) * 16 + c.toNat % 16 = c.toNat := by omega
  rw [hcode] at hfour
  have hspells := SpellsChar.code hfour (.inl (by omega))
  rw [Char.ofNat_toNat] at hspells
  exact hspells

/-- The way in which documents write a character spells it. -/
theorem escape_spelled (c : Char) : SpellsChar (escape c) c := by
  by_cases hshort : c ∈ ['"', '\\', '\x08', '\t', '\n', '\x0c', '\r']
  · simp only [List.mem_cons, List.not_mem_nil, or_false] at hshort
    rcases hshort with rfl | rfl | rfl | rfl | rfl | rfl | rfl
    · exact .short (show ('"', '"') ∈ shortEscapes by decide)
    · exact .short (show ('\\', '\\') ∈ shortEscapes by decide)
    · exact .short (show ('b', '\x08') ∈ shortEscapes by decide)
    · exact .short (show ('t', '\t') ∈ shortEscapes by decide)
    · exact .short (show ('n', '\n') ∈ shortEscapes by decide)
    · exact .short (show ('f', '\x0c') ∈ shortEscapes by decide)
    · exact .short (show ('r', '\r') ∈ shortEscapes by decide)
  · simp only [List.mem_cons, List.not_mem_nil, or_false, not_or] at hshort
    obtain ⟨hquote, hslash, hb, ht, hn, hf, hr⟩ := hshort
    unfold escape
    rw [if_neg hquote, if_neg hslash, if_neg hb, if_neg ht, if_neg hn, if_neg hf, if_neg hr]
    split
    · rename_i hcontrol
      exact control_spelled hcontrol
    · rename_i hcontrol
      exact .plain hquote hslash (Nat.le_of_not_lt hcontrol)

theorem escapes_spelled (cs : List Char) : Spells (cs.flatMap escape) cs := by
  induction cs with
  | nil => exact .nil
  | cons c more ih => exact .cons (escape_spelled c) ih

/-- A string in quotes is a text of the string. -/
theorem quote_spelled (s : String) : IsString (quote s) s := ⟨_, rfl, escapes_spelled s.toList⟩

end RobotBench.Json
