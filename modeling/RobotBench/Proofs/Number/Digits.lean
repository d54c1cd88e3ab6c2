import Mathlib.Tactic.Ring
import RobotBench.Number.Layout

/-!
# Rows of digits

The digits of a natural number are a row with its value. Zeros in front of a row are worth
nothing and zeros behind it are powers of ten, so the positional writing of a decimal keeps its
value: `positional_cases`.
-/

namespace RobotBench

/-- A row of at least one digit. -/
def IsRow (ds : List Char) : Prop := ds ≠ [] ∧ ∀ c ∈ ds, c.isDigit = true

theorem digit_cases {c : Char} (h : c.isDigit = true) : 48 ≤ c.toNat ∧ c.toNat ≤ 57 := by
  simp only [Char.isDigit, Bool.and_eq_true, decide_eq_true_eq] at h
  exact h

theorem digits_are_digits (n : Nat) : ∀ c ∈ Nat.toDigits 10 n, c.isDigit = true := fun _ hc =>
  Nat.isDigit_of_mem_toDigits (by decide) (by decide) hc

/-- Only the digits of zero begin with a zero. -/
theorem head_to_digits (n : Nat) : (Nat.toDigits 10 n).head? = some '0' → n = 0 := by
  have hne : ∀ k < 10, Nat.digitChar k = '0' → k = 0 := by decide
  induction n using Nat.strongRecOn with
  | ind n ih =>
      rcases Nat.lt_or_ge n 10 with hsmall | hlarge
      · rw [Nat.toDigits_of_lt_base hsmall]
        exact fun hzero => hne n hsmall (Option.some.inj hzero)
      · have hhead : (Nat.toDigits 10 n).head? = (Nat.toDigits 10 (n / 10)).head? := by
          obtain ⟨c, more, hdigits⟩ := List.exists_cons_of_ne_nil
            (Nat.toDigits_ne_nil (n := n / 10) (b := 10))
          rw [Nat.toDigits_of_base_le (by decide) hlarge, hdigits]
          rfl
        rw [hhead]
        intro hzero
        have := ih (n / 10) (by omega) hzero
        omega

theorem IsRow.zero : IsRow ['0'] := ⟨List.cons_ne_nil _ _, List.forall_mem_singleton.2 (by decide)⟩

theorem IsRow.append {ds es : List Char} (h : IsRow ds) (hmore : ∀ c ∈ es, c.isDigit = true) :
    IsRow (ds ++ es) :=
  ⟨List.append_ne_nil_of_left_ne_nil h.1 _, fun c hc =>
    (List.mem_append.1 hc).elim (h.2 c) (hmore c)⟩

theorem zeros_are_digits (n : Nat) : ∀ c ∈ List.replicate n '0', c.isDigit = true := by
  intro c hc
  rw [List.eq_of_mem_replicate hc]
  rfl

theorem row_of_digits (d : Decimal) : IsRow d.digits :=
  ⟨Nat.toDigits_ne_nil, digits_are_digits d.coefficient⟩

/-- Zeros behind digits are powers of ten. -/
theorem of_digit_chars_zeros (ds : List Char) (n : Nat) :
    Nat.ofDigitChars 10 (ds ++ List.replicate n '0') 0 = Nat.ofDigitChars 10 ds 0 * 10 ^ n := by
  induction n with
  | zero => simp
  | succ n ih =>
      rw [List.replicate_succ', ← List.append_assoc, Nat.ofDigitChars_append, ih,
        Nat.ofDigitChars_cons, Nat.pow_succ]
      show 10 * (Nat.ofDigitChars 10 ds 0 * 10 ^ n) + 0 = _
      ring

/-- Zeros in front of digits are worth nothing. -/
theorem of_digit_chars_leading (n : Nat) (ds : List Char) :
    Nat.ofDigitChars 10 (List.replicate n '0' ++ ds) 0 = Nat.ofDigitChars 10 ds 0 := by
  induction n with
  | zero => rfl
  | succ n ih =>
      rw [List.replicate_succ, List.cons_append, Nat.ofDigitChars_cons]
      exact ih

/-- The digits of a decimal have the value of its coefficient. -/
theorem of_digit_chars_digits (d : Decimal) : Nat.ofDigitChars 10 d.digits 0 = d.coefficient :=
  Nat.ofDigitChars_ten_toDigits

/-! ## The point -/

/-- The rows before the point and after it write the decimal, with no zero in front but the one
before the point. -/
structure PointBetween (d : Decimal) (whole part : List Char) : Prop where
  whole_row : IsRow whole
  front : whole.head? = some '0' → whole.length = 1
  part_row : IsRow part
  places : -(part.length : Int) = d.exponent
  value : Nat.ofDigitChars 10 (whole ++ part) 0 = d.coefficient

/-- The point stands before all digits, and zeros fill the places between. -/
theorem point_before_digits {d : Decimal} {places : Nat} (hexponent : d.exponent = -(places : Int))
    (h : d.digits.length ≤ places) :
    PointBetween d ['0'] (List.replicate (places - d.digits.length) '0' ++ d.digits) where
  whole_row := IsRow.zero
  front _ := rfl
  part_row := ⟨List.append_ne_nil_of_right_ne_nil _ (row_of_digits d).1, fun c hc =>
    (List.mem_append.1 hc).elim (zeros_are_digits _ c) ((row_of_digits d).2 c)⟩
  places := by
    rw [List.length_append, List.length_replicate]
    omega
  value := by
    have hzeros := of_digit_chars_leading (places - d.digits.length + 1) d.digits
    rw [List.replicate_succ] at hzeros
    exact hzeros.trans (of_digit_chars_digits d)

/-- The point stands among the digits. -/
theorem point_among_digits {d : Decimal} {count places : Nat}
    (hexponent : d.exponent = -((places + 1 : Nat) : Int))
    (h : d.digits.length = (count + 1) + (places + 1)) :
    PointBetween d (d.digits.take (count + 1)) (d.digits.drop (count + 1)) := by
  have hdigits := (row_of_digits d).2
  have hwhole : (d.digits.take (count + 1)).length = count + 1 := by
    rw [List.length_take]
    omega
  have hpart : (d.digits.drop (count + 1)).length = places + 1 := by
    rw [List.length_drop]
    omega
  constructor
  case whole_row =>
    exact ⟨List.ne_nil_of_length_eq_add_one hwhole, fun c hc =>
      hdigits c (List.mem_of_mem_take hc)⟩
  case front =>
    intro hzero
    -- the digits of zero are a single one, which leaves none behind the point
    rw [List.head?_take, if_neg (Nat.succ_ne_zero count)] at hzero
    have hcoefficient : d.coefficient = 0 := head_to_digits d.coefficient hzero
    have hone : d.digits.length = 1 := by
      rw [Decimal.digits, hcoefficient]
      rfl
    omega
  case part_row =>
    exact ⟨List.ne_nil_of_length_eq_add_one hpart, fun c hc =>
      hdigits c (List.mem_of_mem_drop hc)⟩
  case places => rw [hpart, hexponent]
  case value => rw [List.take_append_drop, of_digit_chars_digits]

/-- The digits in positional writing: zeros behind those of a large decimal, or as many digits
behind the point as there are places. -/
theorem positional_cases (d : Decimal) :
    (0 ≤ d.exponent ∧
      d.positional = (d.digits ++ List.replicate d.exponent.toNat '0', [])) ∨
    ∃ whole part, d.positional = (whole, part) ∧ PointBetween d whole part := by
  unfold Decimal.positional
  dsimp only
  by_cases hexponent : 0 ≤ d.exponent
  · exact .inl ⟨hexponent, if_pos hexponent⟩
  · right
    rw [if_neg hexponent]
    obtain ⟨places, hplaces⟩ : ∃ places, (-d.exponent).toNat = places + 1 :=
      ⟨(-d.exponent).toNat - 1, by omega⟩
    have hnegative : d.exponent = -((places + 1 : Nat) : Int) := by omega
    rw [hplaces]
    by_cases hlength : d.digits.length ≤ places + 1
    · rw [if_pos hlength]
      exact ⟨_, _, rfl, point_before_digits hnegative hlength⟩
    · rw [if_neg hlength]
      obtain ⟨count, hcount⟩ : ∃ count, d.digits.length - (places + 1) = count + 1 :=
        ⟨d.digits.length - (places + 1) - 1, by omega⟩
      rw [hcount]
      exact ⟨_, _, List.splitAt_eq, point_among_digits hnegative (by omega)⟩

end RobotBench
