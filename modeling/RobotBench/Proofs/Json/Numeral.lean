import RobotBench.Proofs.Fallible
import RobotBench.Proofs.Json.Reader
import RobotBench.Proofs.Json.Text
import RobotBench.Proofs.Number.Digits
import RobotBench.Proofs.Number.ReadBack

/-!
# Written numerals

A numeral without its sign is a row of digits, with a fraction and a power of ten behind it if
need be (`IsNumeral`). It is read from its parts whatever follows it, as long as that is no part of
it (`numeral_parts`). The reader of settings takes a numeral for a natural number exactly if it is
one and fits in 64 bits (`read_number_whole`, `read_number_other`). Whole numbers and finite numbers
are written as numerals of their own value (`natural_spelled`, `number_spelled`), the latter because
the shortest decimal of a number is read as the number.
-/

namespace RobotBench.Json

/-! ## Digits -/

/-- The value of a digit. -/
def digitValue (c : Char) : Nat := c.toNat - 48

/-- The bytes do not go on a row of digits. -/
def NoDigit (rest : Bytes) : Prop := ∀ b ∈ rest.head?, isDigitByte b = false

/-- The bytes do not go on a numeral. -/
structure Ends (rest : Bytes) : Prop where
  digit : NoDigit rest
  point : ∀ b ∈ rest.head?, b ≠ byte '.'
  power : ∀ b ∈ rest.head?, ¬ (b = byte 'e' ∨ b = byte 'E')

/-- A character of one byte is this byte. -/
theorem byte_to_nat {c : Char} (h : c.toNat < 256) : (byte c).toNat = c.toNat :=
  (UInt8.toNat_ofNat').trans (Nat.mod_eq_of_lt h)

/-- A digit is a byte that is taken for a digit of the same value. -/
theorem digit_byte {c : Char} (h : c.isDigit = true) :
    isDigitByte (byte c) = true ∧ (byte c).toNat - 48 = digitValue c := by
  obtain ⟨hlow, hhigh⟩ := digit_cases h
  have hbyte := byte_to_nat (c := c) (by omega)
  have hfirst : byte '0' ≤ byte c := UInt8.le_iff_toNat_le.2 (by rw [hbyte]; exact hlow)
  have hlast : byte c ≤ byte '9' := UInt8.le_iff_toNat_le.2 (by rw [hbyte]; exact hhigh)
  refine ⟨?_, by rw [hbyte, digitValue]⟩
  rw [isDigitByte, decide_eq_true hfirst, decide_eq_true hlast]
  rfl

/-- A row of digits has one byte for each. -/
theorem bytes_of_digits {ds : List Char} (h : ∀ c ∈ ds, c.isDigit = true) :
    bytesOf ds = ds.map byte :=
  bytes_of_ascii_all <| List.all_eq_true.2 fun c hc => by
    have := digit_cases (h c hc)
    rw [decide_eq_true_eq]
    omega

/-- Nothing is taken where no digit stands. -/
theorem take_while_no_digit {rest : Bytes} (h : NoDigit rest) :
    rest.takeWhile isDigitByte = [] ∧ rest.dropWhile isDigitByte = rest := by
  cases rest with
  | nil => exact ⟨rfl, rfl⟩
  | cons b more =>
      have hb : isDigitByte b = false := h b rfl
      simp [hb]

/-- A row of digits is taken to its end. -/
theorem digit_bytes_append {ds : List Char} (h : ∀ c ∈ ds, c.isDigit = true) {rest : Bytes}
    (hrest : NoDigit rest) : digitBytes (bytesOf ds ++ rest) = (ds.map digitValue, rest) := by
  have hbytes : ∀ b ∈ ds.map byte, isDigitByte b = true := by
    intro b hb
    obtain ⟨c, hc, rfl⟩ := List.mem_map.1 hb
    exact (digit_byte (h c hc)).1
  have hvalues : (ds.map byte).map (fun b => b.toNat - 48) = ds.map digitValue := by
    rw [List.map_map]
    exact List.map_congr_left fun c hc => (digit_byte (h c hc)).2
  obtain ⟨htake, hdrop⟩ := take_while_no_digit hrest
  rw [digitBytes, bytes_of_digits h, List.takeWhile_append_of_pos hbytes,
    List.dropWhile_append_of_pos hbytes, htake, hdrop, List.append_nil, hvalues]

/-- The value of a row of digits. -/
theorem of_digits_map (ds : List Char) :
    ofDigits (ds.map digitValue) = Nat.ofDigitChars 10 ds 0 := by
  rw [ofDigits, List.foldl_map]
  rfl

/-! ## Numerals -/

/-- The texts of the digits behind a point, if there are any. -/
inductive IsFraction : List Char → Option (List Nat) → Prop
  | none : IsFraction [] none
  | point {ds : List Char} : IsRow ds → IsFraction ('.' :: ds) (some (ds.map digitValue))

/-- The signs of a power of ten, which say whether it is below zero. -/
def powerSigns : List (List Char × Bool) := [([], false), (['+'], false), (['-'], true)]

/-- The texts of a power of ten, if there is one. -/
inductive IsPower : List Char → Option (Bool × List Nat) → Prop
  | none : IsPower [] none
  | letter {e : Char} {sign ds : List Char} {below : Bool} : e ∈ ['e', 'E'] →
      (sign, below) ∈ powerSigns → IsRow ds →
      IsPower (e :: (sign ++ ds)) (some (below, ds.map digitValue))

/-- The texts of a numeral without its sign, with the digits of its parts. A zero is the only
digit before the point that begins it. -/
inductive IsNumeral :
    List Char → List Nat → Option (List Nat) → Option (Bool × List Nat) → Prop
  | parts {whole part last : List Char} {fraction : Option (List Nat)}
      {power : Option (Bool × List Nat)} : IsRow whole →
      (whole.head? = some '0' → whole.length = 1) → IsFraction part fraction →
      IsPower last power →
      IsNumeral (whole ++ (part ++ last)) (whole.map digitValue) fraction power

/-- A row has a digit. -/
theorem row_values_ne_nil {ds : List Char} (h : IsRow ds) : ds.map digitValue ≠ [] :=
  fun hnil => h.1 (List.map_eq_nil_iff.1 hnil)

/-- The digits after a point are read. -/
theorem fraction_bytes_read {part : List Char} {fraction : Option (List Nat)}
    (h : IsFraction part fraction) {rest : Bytes} (hdigit : NoDigit rest)
    (hpoint : ∀ b ∈ rest.head?, b ≠ byte '.') :
    fractionBytes (bytesOf part ++ rest) = .ok (fraction, rest) := by
  cases h with
  | none =>
      cases rest with
      | nil => rfl
      | cons b more =>
          have hb : b ≠ byte '.' := hpoint b rfl
          exact if_neg hb
  | @point ds hds =>
      rw [bytes_of_ascii (by decide), List.cons_append, fractionBytes, if_pos rfl,
        digit_bytes_append hds.2 hdigit]
      cases hvalues : ds.map digitValue with
      | nil => exact absurd hvalues (row_values_ne_nil hds)
      | cons d more => rfl

/-- A sign is read, and no sign is seen where digits begin. -/
theorem exponent_sign_read {sign ds : List Char} {below : Bool} (h : (sign, below) ∈ powerSigns)
    (hds : IsRow ds) (rest : Bytes) :
    exponentSign (bytesOf (sign ++ ds) ++ rest) = (below, bytesOf ds ++ rest) := by
  rw [bytes_of_append, List.append_assoc]
  simp only [powerSigns, List.mem_cons, List.not_mem_nil, or_false, Prod.mk.injEq] at h
  rcases h with ⟨rfl, rfl⟩ | ⟨rfl, rfl⟩ | ⟨rfl, rfl⟩
  · obtain ⟨c, more, rfl⟩ := List.exists_cons_of_ne_nil hds.1
    have hc := digit_cases (hds.2 c List.mem_cons_self)
    have hbyte := byte_to_nat (c := c) (by omega)
    have hminus : byte c ≠ byte '-' := by
      intro heq
      rw [heq] at hbyte
      have : (byte '-').toNat = 45 := by decide
      omega
    have hplus : byte c ≠ byte '+' := by
      intro heq
      rw [heq] at hbyte
      have : (byte '+').toNat = 43 := by decide
      omega
    rw [bytes_of_nil, List.nil_append, bytes_of_ascii (by omega), List.cons_append, exponentSign,
      if_neg hminus, if_neg hplus]
  · rfl
  · rfl

/-- A power of ten is read. -/
theorem exponent_bytes_read {last : List Char} {power : Option (Bool × List Nat)}
    (h : IsPower last power) {rest : Bytes} (hrest : Ends rest) :
    exponentBytes (bytesOf last ++ rest) = .ok (power, rest) := by
  cases h with
  | none =>
      cases rest with
      | nil => rfl
      | cons b more => exact if_neg (hrest.power b rfl)
  | @letter e sign ds below he hsign hds =>
      have hletter : e.toNat < 128 ∧ (byte e = byte 'e' ∨ byte e = byte 'E') := by
        simp only [List.mem_cons, List.not_mem_nil, or_false] at he
        rcases he with rfl | rfl <;> decide
      rw [bytes_of_ascii hletter.1, List.cons_append, exponentBytes, if_pos hletter.2,
        exponent_sign_read hsign hds]
      dsimp only
      rw [digit_bytes_append hds.2 hrest.digit]
      cases hvalues : ds.map digitValue with
      | nil => exact absurd hvalues (row_values_ne_nil hds)
      | cons d more => rfl

/-- A power of ten goes on no row of digits, and there is no point in front of it. -/
theorem power_ends {last : List Char} {power : Option (Bool × List Nat)} (h : IsPower last power)
    {rest : Bytes} (hrest : Ends rest) : NoDigit (bytesOf last ++ rest) ∧
      ∀ b ∈ (bytesOf last ++ rest).head?, b ≠ byte '.' := by
  cases h with
  | none => exact ⟨hrest.digit, hrest.point⟩
  | letter he =>
      simp only [List.mem_cons, List.not_mem_nil, or_false] at he
      rcases he with rfl | rfl
      all_goals
        rw [bytes_of_ascii (by decide)]
        constructor
        · rintro _ ⟨⟩
          decide
        · rintro _ ⟨⟩
          decide

/-- The digits before a fraction end there. -/
theorem fraction_no_digit {part : List Char} {fraction : Option (List Nat)}
    (h : IsFraction part fraction) {rest : Bytes} (hrest : NoDigit rest) :
    NoDigit (bytesOf part ++ rest) := by
  cases h with
  | none => exact hrest
  | point =>
      rw [bytes_of_ascii (by decide)]
      rintro _ ⟨⟩
      decide

/-- The digits before the point are read, and no zero is in their way. -/
theorem whole_bytes_read {whole : List Char} (hrow : IsRow whole)
    (hfront : whole.head? = some '0' → whole.length = 1) {rest : Bytes} (hrest : NoDigit rest) :
    ∃ d more, digitBytes (bytesOf whole ++ rest) = (d :: more, rest) ∧
      whole.map digitValue = d :: more ∧ (d = 0 → more = []) := by
  have hread := digit_bytes_append hrow.2 hrest
  cases hwhole : whole with
  | nil => exact absurd hwhole hrow.1
  | cons c ds =>
      rw [hwhole] at hread
      refine ⟨digitValue c, ds.map digitValue, hread, rfl, fun hzero => ?_⟩
      have hc : c = '0' := by
        have hdigit := digit_cases (hrow.2 c (hwhole ▸ List.mem_cons_self))
        have hcode : c.toNat = 48 := by
          rw [digitValue] at hzero
          omega
        exact Char.ext (UInt32.toNat_inj.1 hcode)
      have hlength := hfront (by rw [hwhole, hc]; rfl)
      rw [hwhole] at hlength
      cases ds with
      | nil => rfl
      | cons d more => cases hlength

/-- The parts of a numeral are read one after another. -/
theorem numeral_parts {text : List Char} {whole : List Nat} {fraction : Option (List Nat)}
    {power : Option (Bool × List Nat)} (h : IsNumeral text whole fraction power) {rest : Bytes}
    (hrest : Ends rest) : ∃ d more behind after, whole = d :: more ∧ (d = 0 → more = []) ∧
      digitBytes (bytesOf text ++ rest) = (d :: more, behind) ∧
      fractionBytes behind = .ok (fraction, after) ∧ exponentBytes after = .ok (power, rest) := by
  obtain ⟨hrow, hfront, hpart, hlast⟩ := h
  obtain ⟨hdigit, hpoint⟩ := power_ends hlast hrest
  obtain ⟨d, more, hread, hvalues, hzero⟩ :=
    whole_bytes_read hrow hfront (fraction_no_digit hpart hdigit)
  refine ⟨d, more, _, _, hvalues, hzero, ?_, fraction_bytes_read hpart hdigit hpoint,
    exponent_bytes_read hlast hrest⟩
  rw [bytes_of_append, bytes_of_append, List.append_assoc, List.append_assoc]
  exact hread

/-- A numeral is read to the number that its parts make, whatever follows that does not go on it. -/
theorem read_numeral_parts {text : List Char} {whole : List Nat} {fraction : Option (List Nat)}
    {power : Option (Bool × List Nat)} (h : IsNumeral text whole fraction power)
    (negative : Bool) {rest : Bytes} (hrest : Ends rest) :
    readNumeral negative (bytesOf text ++ rest) =
      .ok (numeral negative whole fraction power, rest) := by
  obtain ⟨d, more, behind, after, rfl, hzero, hread, hfraction, hpower⟩ := numeral_parts h hrest
  rw [readNumeral, hread]
  cases d with
  | succ d => simp [hfraction, hpower, bind, Except.bind, pure, Except.pure]
  | zero =>
      rw [hzero rfl]
      simp [hfraction, hpower, bind, Except.bind, pure, Except.pure]

/-- The front that the parts of a numeral make. -/
def numeralHead (negative : Bool) (whole : List Nat) (fraction : Option (List Nat))
    (power : Option (Bool × List Nat)) : Except SyntaxFault Head :=
  match fraction, power with
  | none, none => wholeHead negative whole
  | fraction, power => fractionHead negative whole (fraction.getD []) power

/-- The reader of settings takes a numeral for what its parts make. -/
theorem read_number_parts {text : List Char} {whole : List Nat} {fraction : Option (List Nat)}
    {power : Option (Bool × List Nat)} (h : IsNumeral text whole fraction power)
    (negative : Bool) {rest : Bytes} (hrest : Ends rest) :
    readNumber negative (bytesOf text ++ rest) =
      (numeralHead negative whole fraction power).map (·, rest) := by
  obtain ⟨d, more, behind, after, rfl, hzero, hread, hfraction, hpower⟩ := numeral_parts h hrest
  rw [readNumber, hread]
  cases d with
  | succ d =>
      cases fraction <;> cases power <;>
        simp [hfraction, hpower, numeralHead, bind, Except.bind, pure, Except.pure, Except.map]
  | zero =>
      rw [hzero rfl]
      cases fraction <;> cases power <;>
        simp [hfraction, hpower, numeralHead, bind, Except.bind, pure, Except.pure, Except.map]

/-! ## Written numerals -/

/-- A numeral without its sign. A zero is the only digit before the point that begins it. -/
structure NumeralText where
  whole : List Char
  fraction : Option (List Char)
  power : Option (Bool × List Char)
  whole_row : IsRow whole
  whole_zero : whole.head? = some '0' → whole.length = 1
  fraction_row : ∀ ds ∈ fraction, IsRow ds
  power_row : ∀ p ∈ power, IsRow p.2

namespace NumeralText

/-- A point and the digits after it. -/
def fractionChars : Option (List Char) → List Char
  | none => []
  | some ds => '.' :: ds

/-- A signed power of ten. -/
def powerChars : Option (Bool × List Char) → List Char
  | none => []
  | some (below, ds) => 'e' :: (if below then '-' else '+') :: ds

/-- The text of a numeral. -/
def chars (t : NumeralText) : List Char :=
  t.whole ++ (fractionChars t.fraction ++ powerChars t.power)

/-- The values of the digits of a power of ten. -/
def powerValues (p : Bool × List Char) : Bool × List Nat := (p.1, p.2.map digitValue)

/-- The decimal that a numeral denotes. -/
def decimal (t : NumeralText) : Decimal :=
  decimalOf (t.whole.map digitValue) ((t.fraction.map (List.map digitValue)).getD [])
    (t.power.map powerValues)

end NumeralText

/-- A written fraction is one. -/
theorem fraction_chars_is {fraction : Option (List Char)} (h : ∀ ds ∈ fraction, IsRow ds) :
    IsFraction (NumeralText.fractionChars fraction) (fraction.map (List.map digitValue)) := by
  cases fraction with
  | none => exact .none
  | some ds => exact .point (h ds rfl)

/-- A written power of ten is one. -/
theorem power_chars_is {power : Option (Bool × List Char)} (h : ∀ p ∈ power, IsRow p.2) :
    IsPower (NumeralText.powerChars power) (power.map NumeralText.powerValues) := by
  cases power with
  | none => exact .none
  | some p =>
      obtain ⟨below, ds⟩ := p
      cases below with
      | true =>
          have hsign : (['-'], true) ∈ powerSigns := by decide
          exact .letter List.mem_cons_self hsign (h _ rfl)
      | false =>
          have hsign : (['+'], false) ∈ powerSigns := by decide
          exact .letter List.mem_cons_self hsign (h _ rfl)

/-- A numeral is written from its parts. -/
theorem NumeralText.is_numeral (t : NumeralText) : IsNumeral t.chars (t.whole.map digitValue)
    (t.fraction.map (List.map digitValue)) (t.power.map powerValues) :=
  .parts t.whole_row t.whole_zero (fraction_chars_is t.fraction_row) (power_chars_is t.power_row)

/-! ## Whole numbers -/

namespace NumeralText

/-- The numeral of a whole number. -/
def ofNat (n : Nat) : NumeralText where
  whole := Nat.toDigits 10 n
  fraction := none
  power := none
  whole_row := ⟨Nat.toDigits_ne_nil, digits_are_digits n⟩
  whole_zero := fun h => by rw [head_to_digits n h]; rfl
  fraction_row := fun _ h => nomatch h
  power_row := fun _ h => nomatch h

/-- A whole number is written as its digits alone. -/
theorem of_nat_chars (n : Nat) : (ofNat n).chars = Nat.toDigits 10 n := List.append_nil _

end NumeralText

/-- The value of the digits of a whole number. -/
theorem of_digits_to_digits (n : Nat) : ofDigits ((Nat.toDigits 10 n).map digitValue) = n :=
  (of_digits_map _).trans Nat.ofDigitChars_ten_toDigits

/-- A whole number is written as a numeral of this number. -/
theorem natural_spelled (n : Nat) : ∃ whole, IsNumeral (Nat.toDigits 10 n) whole none none ∧
    numeral false whole none none = .natural n := by
  have hnumeral := (NumeralText.ofNat n).is_numeral
  rw [NumeralText.of_nat_chars] at hnumeral
  exact ⟨_, hnumeral, congrArg Json.natural (of_digits_to_digits n)⟩

/-- More digits do not make a number smaller. -/
theorem le_of_digits (ds : List Nat) (start : Nat) :
    start ≤ ds.foldl (fun n d => 10 * n + d) start := by
  induction ds generalizing start with
  | nil => exact Nat.le_refl _
  | cons d more ih => exact Nat.le_trans (by omega) (ih (10 * start + d))

/-- Digits of a number of 64 bits are all kept. -/
theorem keep_digits {ds : List Nat} {start : Nat}
    (h : ds.foldl (fun n d => 10 * n + d) start < UInt64.size) :
    keepDigits start ds = (ds.foldl (fun n d => 10 * n + d) start, []) := by
  induction ds generalizing start with
  | nil => rfl
  | cons d more ih =>
      rw [List.foldl_cons] at h ⊢
      have hstep : start * 10 + d = 10 * start + d := by omega
      rw [keepDigits, hstep, if_pos (Nat.lt_of_le_of_lt (le_of_digits more _) h), ih h]

/-- If all digits are kept, they are those of a number of 64 bits. -/
theorem keep_digits_kept {ds : List Nat} {start kept : Nat} (hstart : start < UInt64.size)
    (h : keepDigits start ds = (kept, [])) :
    ds.foldl (fun n d => 10 * n + d) start < UInt64.size := by
  induction ds generalizing start with
  | nil => exact hstart
  | cons d more ih =>
      have hstep : start * 10 + d = 10 * start + d := by omega
      rw [keepDigits, hstep] at h
      split at h
      · rename_i hroom
        exact ih hroom h
      · cases h

/-- A front that is a number, but no natural number. -/
def Head.IsOther (head : Head) : Prop := (∃ n, head = .negative n) ∨ ∃ x, head = .number x

/-- What is scaled is no natural number. -/
theorem other_of_scale {scaled : Except SyntaxFault Number} {head : Head}
    (h : scaled.map .number = .ok head) : head.IsOther := by
  obtain ⟨x, -, rfl⟩ := map_ok_iff.1 h
  exact .inr ⟨x, rfl⟩

/-- Digits of a number of 64 bits are the front of this number. -/
theorem whole_head_natural {ds : List Nat} (h : ofDigits ds < UInt64.size) :
    wholeHead false ds = .ok (.natural (ofDigits ds)) := by
  rw [wholeHead, keep_digits h]
  rfl

/-- Digits with a sign, or of a larger number, are the front of another number. -/
theorem whole_head_other {negative : Bool} {ds : List Nat} {head : Head}
    (h : negative = true ∨ UInt64.size ≤ ofDigits ds) (hhead : wholeHead negative ds = .ok head) :
    head.IsOther := by
  rw [wholeHead] at hhead
  rcases hkeep : keepDigits 0 ds with ⟨kept, dropped⟩
  rw [hkeep] at hhead
  dsimp only at hhead
  split at hhead
  · exact other_of_scale hhead
  · rename_i hdropped
    obtain rfl : dropped = [] := not_not.1 hdropped
    have hsmall : ofDigits ds < UInt64.size := keep_digits_kept (by decide) hkeep
    rcases h with rfl | h
    · rw [if_neg (by decide)] at hhead
      split at hhead
      · exact other_of_scale hhead
      · cases hhead
        exact .inl ⟨kept, rfl⟩
    · omega

/-- A fraction or a power of ten is the front of another number. -/
theorem fraction_head_other {negative : Bool} {whole fraction : List Nat}
    {power : Option (Bool × List Nat)} {head : Head}
    (h : fractionHead negative whole fraction power = .ok head) : head.IsOther := by
  rw [fractionHead] at h
  dsimp only at h
  split at h
  · exact other_of_scale h
  · split at h
    · split at h
      · cases h
      · cases h
        exact .inr ⟨_, rfl⟩
    · exact other_of_scale h

section

variable {text : List Char} {whole : List Nat} {fraction : Option (List Nat)}
  {power : Option (Bool × List Nat)} {negative : Bool} {rest : Bytes}

/-- A numeral is a natural number exactly if it has digits alone. -/
theorem numeral_natural_iff {n : Nat} : numeral negative whole fraction power = .natural n ↔
    negative = false ∧ fraction = none ∧ power = none ∧ ofDigits whole = n := by
  cases negative <;> cases fraction <;> cases power <;> simp [numeral]

/-- A whole number of 64 bits is read as this number. -/
theorem read_number_whole (h : IsNumeral text whole fraction power) {n : Nat}
    (hn : n < UInt64.size) (hvalue : numeral negative whole fraction power = .natural n)
    (hrest : Ends rest) :
    readNumber negative (bytesOf text ++ rest) = .ok (.natural n, rest) := by
  obtain ⟨rfl, rfl, rfl, rfl⟩ := numeral_natural_iff.1 hvalue
  rw [read_number_parts h false hrest, numeralHead, whole_head_natural hn]
  rfl

/-- Any other numeral is read as no natural number, if it is read at all. -/
theorem read_number_other (h : IsNumeral text whole fraction power)
    (hvalue : ∀ n < UInt64.size, numeral negative whole fraction power ≠ .natural n)
    (hrest : Ends rest) {head : Head} {behind : Bytes}
    (hread : readNumber negative (bytesOf text ++ rest) = .ok (head, behind)) :
    head.IsOther := by
  rw [read_number_parts h negative hrest, map_ok_iff] at hread
  obtain ⟨found, hfound, heq⟩ := hread
  obtain ⟨rfl, -⟩ := Prod.mk.inj heq
  unfold numeralHead at hfound
  split at hfound
  · refine whole_head_other ?_ hfound
    cases negative with
    | true => exact .inl rfl
    | false =>
        refine .inr (Nat.le_of_not_lt fun hsmall => ?_)
        exact hvalue _ hsmall rfl
  · exact fraction_head_other hfound

end

/-! ## Numbers -/

/-- The decimal of digits in front of a point and behind it. -/
theorem decimal_of_map (whole part : List Char) (power : Option (Bool × List Nat)) :
    decimalOf (whole.map digitValue) (part.map digitValue) power =
      ⟨Nat.ofDigitChars 10 (whole ++ part) 0, powerOf power - part.length⟩ := by
  rw [decimalOf, ← List.map_append, of_digits_map, List.length_map]

namespace NumeralText

/-- The numeral of digits in front of a point and behind it. -/
def pointed (whole part : List Char) (hwhole : IsRow whole)
    (hzero : whole.head? = some '0' → whole.length = 1) (hpart : IsRow part) : NumeralText where
  whole := whole
  fraction := some part
  power := none
  whole_row := hwhole
  whole_zero := hzero
  fraction_row := fun _ h => Option.some.inj h ▸ hpart
  power_row := fun _ h => nomatch h

/-- A decimal with its point is written with the digits on both sides. -/
theorem pointed_chars {whole part : List Char} (hwhole : IsRow whole)
    (hzero : whole.head? = some '0' → whole.length = 1) (hpart : IsRow part) :
    (pointed whole part hwhole hzero hpart).chars = whole ++ '.' :: part := by
  show whole ++ ('.' :: part ++ []) = _
  rw [List.append_nil]

/-- A decimal with its point is that of all its digits, scaled by those behind the point. -/
theorem pointed_decimal {whole part : List Char} (hwhole : IsRow whole)
    (hzero : whole.head? = some '0' → whole.length = 1) (hpart : IsRow part) :
    (pointed whole part hwhole hzero hpart).decimal =
      ⟨Nat.ofDigitChars 10 (whole ++ part) 0, -part.length⟩ := by
  show decimalOf (whole.map digitValue) (part.map digitValue) none = _
  rw [decimal_of_map]
  congr 1
  exact Int.zero_sub _

/-- The numeral of a digit, more digits behind the point and a power of ten. -/
def scientific (c : Char) (more : List Char) (magnitude : Int)
    (hdigits : ∀ e ∈ c :: more, e.isDigit = true) : NumeralText where
  whole := [c]
  fraction := if more = [] then none else some more
  power := some (decide (magnitude < 0), Nat.toDigits 10 magnitude.natAbs)
  whole_row := ⟨List.cons_ne_nil _ _, fun e he =>
    hdigits e (List.mem_singleton.1 he ▸ List.mem_cons_self)⟩
  whole_zero := fun _ => rfl
  fraction_row := by
    intro ds hds
    split at hds
    · cases hds
    · rename_i hmore
      obtain rfl := Option.some.inj hds
      exact ⟨hmore, fun e he => hdigits e (List.mem_cons_of_mem _ he)⟩
  power_row := by
    rintro _ ⟨⟩
    exact ⟨Nat.toDigits_ne_nil, digits_are_digits _⟩

/-- A decimal with a power of ten is that of its digits, scaled by the power. -/
theorem scientific_decimal {c : Char} {more : List Char} {magnitude : Int}
    (hdigits : ∀ e ∈ c :: more, e.isDigit = true) :
    (scientific c more magnitude hdigits).decimal =
      ⟨Nat.ofDigitChars 10 (c :: more) 0, magnitude - more.length⟩ := by
  have hfraction : ((scientific c more magnitude hdigits).fraction.map
      (List.map digitValue)).getD [] = more.map digitValue := by
    cases more with
    | nil => rfl
    | cons e more => rfl
  have hpower : powerOf (some (decide (magnitude < 0),
      (Nat.toDigits 10 magnitude.natAbs).map digitValue)) = magnitude := by
    rw [powerOf, of_digits_to_digits]
    simp only [decide_eq_true_eq]
    split <;> omega
  rw [decimal, hfraction]
  show decimalOf ([c].map digitValue) (more.map digitValue) (some (decide (magnitude < 0),
    (Nat.toDigits 10 magnitude.natAbs).map digitValue)) = _
  rw [decimal_of_map, hpower]
  rfl

end NumeralText

/-- The numeral of a decimal in positional writing. -/
theorem exists_pointed {d : Decimal} (h : d.coefficient ≠ 0 ∨ d.exponent ≤ 0) :
    ∃ t : NumeralText, t.chars = d.pointed ∧ t.decimal.Same d ∧ t.fraction ≠ none := by
  unfold Decimal.pointed
  rcases positional_cases d with ⟨hexponent, hcase⟩ |
    ⟨whole, part, hcase, hwhole, hzero, hpart, hlength, hvalue⟩
  · have hfront : (d.digits ++ List.replicate d.exponent.toNat '0').head? = some '0' →
        (d.digits ++ List.replicate d.exponent.toNat '0').length = 1 := by
      intro hhead
      have hdigits : d.digits.head? = some '0' := by
        obtain ⟨c, more, hcons⟩ := List.exists_cons_of_ne_nil (row_of_digits d).1
        rw [hcons] at hhead ⊢
        exact hhead
      have hcoefficient : d.coefficient = 0 := head_to_digits _ hdigits
      have hplaces : d.exponent.toNat = 0 := by omega
      rw [hplaces, Decimal.digits, hcoefficient]
      rfl
    have hvalue : Nat.ofDigitChars 10
        (d.digits ++ List.replicate d.exponent.toNat '0' ++ ['0']) 0 =
          d.coefficient * 10 ^ (d.exponent.toNat + 1) := by
      rw [← of_digit_chars_digits d, ← of_digit_chars_zeros, List.replicate_succ',
        List.append_assoc]
    have hsame := Decimal.same_shift d.coefficient (d.exponent.toNat + 1) (-1)
    have hexponentEq : -1 + ((d.exponent.toNat + 1 : Nat) : Int) = d.exponent := by omega
    rw [← hvalue, hexponentEq] at hsame
    refine ⟨.pointed _ ['0'] ((row_of_digits d).append (zeros_are_digits _)) hfront .zero,
      ?_, ?_, Option.some_ne_none _⟩
    · rw [hcase, NumeralText.pointed_chars]
    · rw [NumeralText.pointed_decimal]
      exact hsame
  · refine ⟨.pointed whole part hwhole hzero hpart, ?_, ?_, Option.some_ne_none _⟩
    · rw [hcase, NumeralText.pointed_chars]
      obtain ⟨c, more, rfl⟩ := List.exists_cons_of_ne_nil hpart.1
      rfl
    · rw [NumeralText.pointed_decimal, hvalue, hlength]
      rfl

/-- The numeral of a decimal in scientific writing. -/
theorem exists_scientific (d : Decimal) :
    ∃ t : NumeralText, t.chars = d.scientific ∧ t.decimal.Same d ∧ t.power ≠ none := by
  obtain ⟨hne, hdigits⟩ := row_of_digits d
  have hvalue := of_digit_chars_digits d
  unfold Decimal.scientific
  cases hcons : d.digits with
  | nil => exact absurd hcons hne
  | cons c more =>
      rw [hcons] at hdigits hvalue
      have hmagnitude : d.magnitude - more.length = d.exponent := by
        rw [Decimal.magnitude, hcons, List.length_cons]
        omega
      refine ⟨.scientific c more d.magnitude hdigits, ?_, ?_, Option.some_ne_none _⟩
      · have hsign : (if decide (d.magnitude < 0) = true then '-' else '+') =
            if d.magnitude < 0 then '-' else '+' := by simp only [decide_eq_true_eq]
        show [c] ++ (NumeralText.fractionChars (if more = [] then none else some more) ++
          'e' :: (if decide (d.magnitude < 0) = true then '-' else '+') :: _) = _
        rw [hsign]
        cases more with
        | nil => rfl
        | cons e more => rfl
      · rw [NumeralText.scientific_decimal, hvalue, hmagnitude]
        rfl

/-- The numeral of a decimal in a document. It has a point or a power of ten. -/
theorem exists_numeral {d : Decimal} (h : d.coefficient ≠ 0 ∨ d.exponent ≤ 0) :
    ∃ t : NumeralText, t.chars = d.json ∧ t.decimal.Same d ∧
      (t.fraction ≠ none ∨ t.power ≠ none) := by
  unfold Decimal.json
  split
  · obtain ⟨t, hchars, hsame, hfraction⟩ := exists_pointed h
    exact ⟨t, hchars, hsame, .inl hfraction⟩
  · obtain ⟨t, hchars, hsame, hpower⟩ := exists_scientific d
    exact ⟨t, hchars, hsame, .inr hpower⟩

/-- The numeral of a number with a point or a power of ten is read as a number. -/
theorem numeral_number (negative : Bool) (whole : List Nat) {fraction : Option (List Nat)}
    {power : Option (Bool × List Nat)} (h : fraction ≠ none ∨ power ≠ none) :
    numeral negative whole fraction power =
      .number ((decimalOf whole (fraction.getD []) power).toNumber negative) := by
  cases negative with
  | true => rfl
  | false =>
      cases fraction with
      | some ds => rfl
      | none =>
          cases power with
          | some p => rfl
          | none => simp at h

/-- A finite number is written as a numeral of this number. -/
theorem number_spelled (negative : Bool) (m : Number.Magnitude) :
    ∃ text whole fraction power, (Number.json (.finite negative m)).toList =
        (if negative then '-' :: text else text) ∧
      IsNumeral text whole fraction power ∧
      numeral negative whole fraction power = .number (.finite negative m) := by
  obtain ⟨t, hchars, hsame, hreal⟩ := exists_numeral (written_nonzero m .even)
  have hround := (Decimal.round_eq_of_same hsame).trans (round_written m .even)
  have hreal' : t.fraction.map (List.map digitValue) ≠ none ∨
      t.power.map NumeralText.powerValues ≠ none :=
    hreal.imp (fun h hnone => h (Option.map_eq_none_iff.1 hnone))
      fun h hnone => h (Option.map_eq_none_iff.1 hnone)
  refine ⟨t.chars, _, _, _, ?_, t.is_numeral, ?_⟩
  · rw [hchars, Number.json, Number.written, String.toList_ofList]
  · rw [numeral_number _ _ hreal']
    show Json.number (t.decimal.toNumber negative) = _
    rw [Decimal.to_number_of_round hround]

end RobotBench.Json
