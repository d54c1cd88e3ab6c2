import RobotBench.Number.Literal
import RobotBench.Proofs.Number.Digits
import RobotBench.Proofs.Number.ReadBack

/-!
# Numbers written as literals

The plain text of a finite number is a literal of this number, `read_number_plain`, and so is the
numeral of a natural number, `read_number_repr`. A literal begins with a sign, a point or a digit
(`read_number_front`), so that a text beginning with a letter or a bracket is none.
-/

namespace RobotBench

namespace Literal

/-! ## Rows of digits -/

/-- A row of digits is taken to its end. -/
theorem digits_append {ds rest : List Char} (hds : ∀ c ∈ ds, c.isDigit = true)
    (hrest : ∀ c ∈ rest.head?, c.isDigit = false) : digits (ds ++ rest) = (ds, rest) := by
  have hstop : rest.takeWhile Char.isDigit = [] ∧ rest.dropWhile Char.isDigit = rest := by
    cases rest with
    | nil => exact ⟨rfl, rfl⟩
    | cons c more =>
        have hc : c.isDigit = false := hrest c rfl
        simp [hc]
  rw [digits, List.takeWhile_append_of_pos hds, List.dropWhile_append_of_pos hds, hstop.1,
    hstop.2, List.append_nil]

theorem digits_of_row {ds : List Char} (hds : ∀ c ∈ ds, c.isDigit = true) :
    digits ds = (ds, []) := by
  have hall : digits (ds ++ []) = (ds, []) := digits_append hds nofun
  rwa [List.append_nil] at hall

/-- A row of digits is the literal of its value. -/
theorem decimal_of_row {ds : List Char} (h : IsRow ds) :
    decimal? ds = some ⟨Nat.ofDigitChars 10 ds 0, 0⟩ := by
  rw [decimal?, digits_of_row h.2]
  dsimp only [fraction]
  rw [if_neg (fun hnone => h.1 hnone.1), List.append_nil]
  rfl

/-- Digits behind the point are places of the literal. -/
theorem decimal_of_pointed {whole part : List Char} (hwhole : IsRow whole)
    (hpart : ∀ c ∈ part, c.isDigit = true) :
    decimal? (whole ++ '.' :: part) =
      some ⟨Nat.ofDigitChars 10 (whole ++ part) 0, -(part.length : Int)⟩ := by
  have hbefore : digits (whole ++ '.' :: part) = (whole, '.' :: part) := by
    refine digits_append hwhole.2 ?_
    rintro _ ⟨⟩
    rfl
  have hfraction : fraction ('.' :: part) = (part, []) := digits_of_row hpart
  rw [decimal?, hbefore]
  dsimp only
  rw [hfraction]
  dsimp only
  rw [if_neg (fun hnone => hwhole.1 hnone.1), power?, Option.map_some, Int.zero_sub]
  rfl

/-! ## What a literal begins with -/

/-- The character can begin a literal. -/
def IsFront (c : Char) : Prop := c = '-' ∨ c = '+' ∨ c = '.' ∨ c.isDigit = true

instance (c : Char) : Decidable (IsFront c) :=
  inferInstanceAs (Decidable (c = '-' ∨ c = '+' ∨ c = '.' ∨ c.isDigit = true))

/-- Only a minus and a plus are signs. -/
theorem sign_none {c : Char} {rest : List Char} (hminus : c ≠ '-') (hplus : c ≠ '+') :
    sign (c :: rest) = (false, c :: rest) := by
  unfold sign
  split
  · rename_i heq
    exact absurd (List.cons.inj heq).1 hminus
  · rename_i heq
    exact absurd (List.cons.inj heq).1 hplus
  · rfl

/-- What begins with a row of digits has no sign. -/
theorem sign_row {ds : List Char} (h : IsRow ds) (more : List Char) :
    sign (ds ++ more) = (false, ds ++ more) := by
  cases ds with
  | nil => exact absurd rfl h.1
  | cons c rest =>
      have hc : c.isDigit = true := h.2 c List.mem_cons_self
      refine sign_none ?_ ?_
      · rintro rfl
        cases hc
      · rintro rfl
        cases hc

/-- A literal without a sign begins with a digit or a point. -/
theorem decimal_front {c : Char} {rest : List Char} {d : Decimal}
    (h : decimal? (c :: rest) = some d) : c = '.' ∨ c.isDigit = true := by
  by_cases hdigit : c.isDigit = true
  · exact .inr hdigit
  · by_cases hpoint : c = '.'
    · exact .inl hpoint
    · -- no digit before a point and no point: nothing is there to be read
      have hnone : digits (c :: rest) = ([], c :: rest) := by
        rw [digits, List.takeWhile_cons_of_neg hdigit, List.dropWhile_cons_of_neg hdigit]
      have hfraction : fraction (c :: rest) = ([], c :: rest) := by
        unfold fraction
        split
        · rename_i heq
          exact absurd (List.cons.inj heq).1 hpoint
        · rfl
      rw [decimal?, hnone] at h
      dsimp only at h
      rw [hfraction] at h
      cases h

theorem IsFront.code_lt {c : Char} (h : IsFront c) : c.toNat < 58 := by
  rcases h with rfl | rfl | rfl | hdigit
  · decide
  · decide
  · decide
  · have := (digit_cases hdigit).2
    omega

/-- No word of floating-point notation begins as a literal does. -/
theorem special_front {negative : Bool} {c : Char} {rest : List Char} (hc : IsFront c) :
    special? negative (c :: rest) = none := by
  have hletter : c.toLower ≠ 'i' ∧ c.toLower ≠ 'n' := by
    have hcodes : ∀ k < 58, (Char.ofNat k).toLower ≠ 'i' ∧ (Char.ofNat k).toLower ≠ 'n' := by
      decide
    have hcode := hcodes c.toNat hc.code_lt
    rwa [Char.ofNat_toNat] at hcode
  simp [special?, hletter.1, hletter.2]

/-- What stands behind one sign, if it is no sign itself, is what stands behind all of them. -/
theorem begins_numeric_behind {cs rest : List Char} {c : Char} (h : (sign cs).2 = c :: rest)
    (hc : isSign c = false) : beginsNumeric cs = (c.isDigit || decide (c = '.')) := by
  have hstop : (c :: rest).dropWhile isSign = c :: rest :=
    List.dropWhile_cons_of_neg (ne_true_of_eq_false hc)
  have hbehind : cs.dropWhile isSign = c :: rest := by
    unfold sign at h
    split at h
    · obtain rfl : _ = c :: rest := h
      rw [List.dropWhile_cons_of_pos rfl, hstop]
    · obtain rfl : _ = c :: rest := h
      rw [List.dropWhile_cons_of_pos rfl, hstop]
    · obtain rfl : _ = c :: rest := h
      exact hstop
  rw [beginsNumeric, hbehind]

end Literal

open Literal

/-- What is read as a number is a literal behind a sign, if there is one: the front that is asked
for tells the words of floating-point notation from the literals. -/
theorem read_number_eq (text : String) :
    readNumber? text =
      (decimal? (sign text.toList).2).map (Decimal.toNumber (sign text.toList).1) := by
  unfold readNumber? readFloat?
  generalize text.toList = cs
  dsimp only
  cases hdecimal : decimal? (sign cs).2 with
  | some d =>
      cases hrest : (sign cs).2 with
      | nil =>
          rw [hrest] at hdecimal
          cases hdecimal
      | cons c rest =>
          rw [hrest] at hdecimal
          have hfront := decimal_front hdecimal
          have hnosign : isSign c = false := by
            rcases hfront with rfl | hdigit
            · rfl
            · have := digit_cases hdigit
              refine decide_eq_false ?_
              rintro (rfl | rfl) <;> cases hdigit
          have hbegins : beginsNumeric cs = true := by
            rw [begins_numeric_behind hrest hnosign]
            rcases hfront with rfl | hdigit
            · rfl
            · rw [hdigit, Bool.true_or]
          rw [if_pos hbegins]
          rfl
  | none =>
      -- what has the front of a literal is no word either
      split
      · rename_i hbegins
        cases hrest : (sign cs).2 with
        | nil => rfl
        | cons c rest =>
            refine special_front ?_
            cases hsign : isSign c with
            | true =>
                rcases of_decide_eq_true hsign with hminus | hplus
                · exact .inl hminus
                · exact .inr (.inl hplus)
            | false =>
                rw [begins_numeric_behind hrest hsign, Bool.or_eq_true,
                  decide_eq_true_eq] at hbegins
                exact .inr (.inr hbegins.symm)
      · rfl

/-- What is read as a number begins with a sign, a point or a digit. -/
theorem read_number_front {text : String} {x : Number} (h : readNumber? text = some x) :
    ∃ c, text.toList.head? = some c ∧ IsFront c := by
  rw [read_number_eq] at h
  obtain ⟨d, hd, -⟩ := Option.map_eq_some_iff.1 h
  cases htext : text.toList with
  | nil =>
      rw [htext] at hd
      cases hd
  | cons c rest =>
      refine ⟨c, rfl, ?_⟩
      by_cases hminus : c = '-'
      · exact .inl hminus
      · by_cases hplus : c = '+'
        · exact .inr (.inl hplus)
        · rw [htext, sign_none hminus hplus] at hd
          exact .inr (.inr (decimal_front hd))

/-- A text that begins with no front of a literal is not read as a number. -/
theorem read_number_none {text : String} {c : Char} (htext : text.toList.head? = some c)
    (hc : ¬ IsFront c) : readNumber? text = none := by
  cases hread : readNumber? text with
  | none => rfl
  | some x =>
      obtain ⟨front, hfront, hliteral⟩ := read_number_front hread
      obtain rfl := Option.some.inj (htext.symm.trans hfront)
      exact absurd hliteral hc

/-! ## Plain texts -/

/-- Positional writing is a literal of the decimal's value. -/
theorem decimal_plain (d : Decimal) :
    ∃ e, decimal? d.plain = some e ∧ e.Same d := by
  rcases positional_cases d with ⟨hexponent, hpositional⟩ |
    ⟨whole, part, hpositional, hwhole, -, hpart, hplaces, hvalue⟩
  · refine ⟨⟨d.coefficient * 10 ^ d.exponent.toNat, 0⟩, ?_, ?_⟩
    · rw [Decimal.plain, hpositional]
      dsimp only
      rw [decimal_of_row ((row_of_digits d).append (zeros_are_digits _)), of_digit_chars_zeros,
        of_digit_chars_digits]
    · have hsame := Decimal.same_shift d.coefficient d.exponent.toNat 0
      rwa [Int.zero_add, Int.toNat_of_nonneg hexponent] at hsame
  · refine ⟨d, ?_, rfl⟩
    rw [Decimal.plain, hpositional]
    cases part with
    | nil => exact absurd rfl hpart.1
    | cons c rest =>
        dsimp only
        rw [decimal_of_pointed hwhole hpart.2, hvalue, hplaces]

/-- Positional writing has no sign. -/
theorem plain_sign (d : Decimal) : sign d.plain = (false, d.plain) := by
  rcases positional_cases d with ⟨-, hpositional⟩ | ⟨whole, part, hpositional, hwhole, -, hpart, -⟩
  · rw [Decimal.plain, hpositional]
    exact sign_row (row_of_digits d) _
  · rw [Decimal.plain, hpositional]
    cases part with
    | nil => exact absurd rfl hpart.1
    | cons c rest => exact sign_row hwhole _

/-- The plain text of a finite number is read as this number. -/
theorem read_number_plain (negative : Bool) (m : Number.Magnitude) :
    readNumber? (Number.plain (.finite negative m)) = some (.finite negative m) := by
  generalize hd : (if m.units = 0 then (⟨0, 0⟩ : Decimal) else Decimal.shortest .up m.units) = d
  have hround : d.round = m.units := by
    rw [← hd]
    exact round_written m .up
  obtain ⟨e, hread, hsame⟩ := decimal_plain d
  have hsign : sign (if negative then '-' :: d.plain else d.plain) = (negative, d.plain) := by
    cases negative with
    | true => rfl
    | false => exact plain_sign d
  have htext : (Number.plain (.finite negative m)).toList =
      if negative then '-' :: d.plain else d.plain := by
    rw [Number.plain, Number.written, hd]
    exact String.toList_ofList
  have hvalue : e.round = m.units := (Decimal.round_eq_of_same hsame).trans hround
  rw [read_number_eq, htext, hsign, hread, Option.map_some, Decimal.to_number_of_round hvalue]

/-! ## Natural numbers -/

namespace Number

/-- Below `2 ^ 53` every natural number is a number. -/
theorem of_nat_finite {n : Nat} (hn : n < 2 ^ 53) :
    ∃ m : Magnitude, ofNat n = .finite false m ∧ m.units = n * unitsPerOne := by
  have hfits : Fits (n * unitsPerOne) := fits_mul_two_pow (Nat.le_of_lt hn)
  have hround : roundRatio (n * unitsPerOne) 1 = n * unitsPerOne := round_ratio_one hfits
  have hlimit : n * unitsPerOne < unitsLimit := by
    have hsplit : unitsLimit = 2 ^ 1024 * unitsPerOne := by
      rw [unitsLimit, unitsPerOne, Nat.pow_eq, Nat.pow_eq, ← Nat.pow_add]
    rw [hsplit]
    refine Nat.mul_lt_mul_of_pos_right (Nat.lt_trans hn ?_) (Nat.two_pow_pos _)
    exact Nat.pow_lt_pow_right (by decide) (by decide)
  refine ⟨⟨n * unitsPerOne, hfits, hlimit⟩, ?_, rfl⟩
  rw [ofNat, ofUnits, dif_pos (by rw [hround]; exact hlimit)]
  exact congrArg _ (Magnitude.ext_units hround)

/-- A finite number stands a natural number of units above zero if it has as many units and is
not below zero. -/
theorem place_eq_natural_iff {negative : Bool} {m : Magnitude} {units : Nat} :
    place (.finite negative m) = some (units : Int) ↔
      ¬ (negative = true ∧ m.units ≠ 0) ∧ m.units = units := by
  rw [place, Option.some_inj]
  cases negative with
  | true =>
      rw [if_pos rfl]
      by_cases hzero : m.units = 0
      · simp [hzero, eq_comm]
      · have hbelow : ¬ -(m.units : Int) = units := by omega
        simp [hzero, hbelow]
  | false =>
      rw [if_neg Bool.false_ne_true]
      simp

/-- A number is the natural number at whose place it stands. -/
theorem to_nat_iff {x : Number} {n : Nat} :
    x.toNat? = some n ↔ x.isFinite = true ∧ x.place = some ((n * unitsPerOne : Nat) : Int) := by
  have hpos : 0 < unitsPerOne := Nat.two_pow_pos _
  cases x with
  | nan =>
      constructor
      · intro h
        cases h
      · rintro ⟨⟨⟩, -⟩
  | infinite negative =>
      constructor
      · intro h
        cases h
      · rintro ⟨⟨⟩, -⟩
  | finite negative m =>
      rw [place_eq_natural_iff, toNat?]
      generalize unitsPerOne = one at hpos
      constructor
      · intro h
        split at h
        · cases h
        · rename_i hwhole
          obtain rfl := Option.some.inj h
          obtain ⟨hpositive, hrest⟩ := not_or.1 hwhole
          have hdvd : one ∣ m.units := Nat.dvd_of_mod_eq_zero (not_not.1 hrest)
          exact ⟨rfl, hpositive, (Nat.div_mul_cancel hdvd).symm⟩
      · rintro ⟨-, hpositive, hunits⟩
        have hrest : m.units % one = 0 := by rw [hunits, Nat.mul_mod_left]
        rw [if_neg (not_or.2 ⟨hpositive, not_not.2 hrest⟩), hunits, Nat.mul_div_cancel n hpos]

theorem to_nat_of_nat {n : Nat} (hn : n < 2 ^ 53) : (ofNat n).toNat? = some n := by
  obtain ⟨m, hm, hunits⟩ := of_nat_finite hn
  rw [to_nat_iff, hm, place, hunits]
  exact ⟨rfl, rfl⟩

/-- The number is negative or has a fraction, or it is not finite. -/
def NotCount (x : Number) : Prop :=
  x.isFinite = false ∨ ∃ i, x.place = some i ∧ (i < 0 ∨ ¬ (unitsPerOne : Int) ∣ i)

theorem NotCount.to_nat {x : Number} (h : x.NotCount) : x.toNat? = none := by
  cases hx : x.toNat? with
  | none => rfl
  | some n =>
      obtain ⟨hfinite, hplace⟩ := to_nat_iff.1 hx
      rcases h with hnot | ⟨i, hi, hnot⟩
      · rw [hfinite] at hnot
        cases hnot
      · obtain rfl := Option.some.inj (hi.symm.trans hplace)
        rcases hnot with hnegative | hfraction
        · omega
        · exact absurd ⟨(n : Int), by rw [Int.natCast_mul, Int.mul_comm]⟩ hfraction

end Number

/-- A decimal without a power of ten is a natural number. -/
theorem Decimal.to_number_of_nat (n : Nat) : Decimal.toNumber false ⟨n, 0⟩ = .ofNat n := by
  by_cases hzero : n = 0
  · rw [hzero]
    decide +kernel
  · have hhuge : ¬ Decimal.isHuge ⟨n, 0⟩ = true := by
      intro h
      exact absurd (of_decide_eq_true h : n ≠ 0 ∧ (400 : Int) < 0).2 (by decide)
    have htiny : ¬ Decimal.isTiny ⟨n, 0⟩ = true := by
      intro h
      rcases (of_decide_eq_true h : n = 0 ∨ ((n.log2 + 401 : Nat) : Int) < -0) with h | h
      · exact hzero h
      · omega
    have hnum : Decimal.unitsNum ⟨n, 0⟩ = n * Number.unitsPerOne := by
      rw [Decimal.unitsNum]
      exact congrArg (· * Number.unitsPerOne) (Nat.mul_one n)
    rw [Decimal.toNumber, if_neg hhuge, if_neg htiny, hnum]
    rfl

/-- The numeral of a natural number is read as the number nearest to it. -/
theorem read_number_repr (n : Nat) : readNumber? (Nat.repr n) = some (.ofNat n) := by
  have hrow : IsRow (Nat.toDigits 10 n) := ⟨Nat.toDigits_ne_nil, digits_are_digits n⟩
  have hvalue : Nat.ofDigitChars 10 (Nat.toDigits 10 n) 0 = n := Nat.ofDigitChars_ten_toDigits
  have hread : decimal? (Nat.toDigits 10 n) = some ⟨n, 0⟩ := by
    rw [decimal_of_row hrow, hvalue]
  have hsign : sign (Nat.toDigits 10 n) = (false, Nat.toDigits 10 n) := by
    have hempty := sign_row hrow []
    rwa [List.append_nil] at hempty
  have htext : (Nat.repr n).toList = Nat.toDigits 10 n := String.toList_ofList
  rw [read_number_eq, htext, hsign, hread, Option.map_some, Decimal.to_number_of_nat]

end RobotBench
