import Mathlib.Tactic.Ring
import RobotBench.Number.Shortest

/-!
# Decimals that read back

Rounding depends on the quotient alone (`round_ratio_scale`), so decimals of the same value are
rounded alike (`Decimal.round_eq_of_same`), and a count of units that fits is its own rounding
(`round_ratio_self`). The shortest decimal of a count therefore reads back as that count,
`Decimal.round_shortest`, and a decimal that rounds to the units of a finite number denotes this
number, `Decimal.to_number_of_round`.
-/

namespace RobotBench

namespace Number

/-! ## Rounding a quotient -/

/-- Rounding depends on the quotient alone. -/
theorem round_ratio_scale (num den : Nat) {k : Nat} (hk : 0 < k) :
    roundRatio (num * k) (den * k) = roundRatio num den := by
  have hquotient : num * k / (den * k) = num / den := Nat.mul_div_mul_right _ _ hk
  have hstep (p : Nat) : den * k * p = den * p * k := Nat.mul_right_comm _ _ _
  unfold roundRatio
  dsimp only
  rw [hquotient]
  generalize Nat.pow 2 ((num / den).log2 - 52) = p
  have htwice : 2 * (num * k % (den * p * k)) = 2 * (num % (den * p)) * k := by
    rw [Nat.mul_mod_mul_right, Nat.mul_assoc]
  rw [hstep, Nat.mul_div_mul_right _ _ hk, htwice]
  simp only [Nat.mul_lt_mul_right hk, Nat.mul_left_inj (Nat.ne_of_gt hk)]

/-- Equal quotients are rounded alike. -/
theorem round_ratio_congr {a b c d : Nat} (hb : 0 < b) (hd : 0 < d) (h : a * d = c * b) :
    roundRatio a b = roundRatio c d := by
  rw [← round_ratio_scale a b hd, h, Nat.mul_comm b d, round_ratio_scale c d hb]

/-- A count of units that fits is its own rounding. -/
theorem round_ratio_one {units : Nat} (h : Fits units) : roundRatio units 1 = units := by
  obtain ⟨q, hq⟩ := h
  have hpos : 0 < Nat.pow 2 (units.log2 - 52) := Nat.two_pow_pos _
  unfold roundRatio
  dsimp only
  rw [Nat.div_one, Nat.one_mul]
  generalize Nat.pow 2 (units.log2 - 52) = p at hq hpos ⊢
  have hrest : units % p = 0 := by rw [hq, Nat.mul_mod_right]
  rw [hrest, if_neg (by omega), hq, Nat.mul_div_cancel_left q hpos, Nat.mul_comm]

theorem round_ratio_self {units k : Nat} (h : Fits units) (hk : 0 < k) :
    roundRatio (units * k) k = units := by
  rw [← round_ratio_one h]
  refine round_ratio_congr hk Nat.one_pos ?_
  rw [round_ratio_one h, Nat.mul_one]

/-- Rounding does not go below the last power of two. -/
theorem two_pow_log_le_round {num den : Nat} (h : num / den ≠ 0) :
    2 ^ (num / den).log2 ≤ roundRatio num den := by
  have hquotient : num / (den * Nat.pow 2 ((num / den).log2 - 52)) =
      num / den / Nat.pow 2 ((num / den).log2 - 52) := (Nat.div_div_eq_div_mul _ _ _).symm
  have hle := Nat.log2_self_le h
  unfold roundRatio
  dsimp only
  rw [hquotient]
  generalize num / den = n at h hle ⊢
  have hcut : 2 ^ n.log2 ≤ n / Nat.pow 2 (n.log2 - 52) * Nat.pow 2 (n.log2 - 52) := by
    have hsplit : 2 ^ (n.log2 - (n.log2 - 52)) * 2 ^ (n.log2 - 52) = 2 ^ n.log2 := by
      rw [← Nat.pow_add]
      congr 1
      omega
    rw [Nat.pow_eq, ← hsplit]
    refine Nat.mul_le_mul_right _ ((Nat.le_div_iff_mul_le (Nat.two_pow_pos _)).2 ?_)
    rw [hsplit]
    exact hle
  refine Nat.le_trans hcut (Nat.mul_le_mul_right _ ?_)
  split <;> omega

/-- Less than half a unit is rounded to none. -/
theorem round_ratio_tiny {num den : Nat} (h : 2 * num ≤ den) (hden : 0 < den) :
    roundRatio num den = 0 := by
  have hzero : num / den = 0 := Nat.div_eq_of_lt (by omega)
  unfold roundRatio
  dsimp only
  rw [hzero]
  have hone : Nat.pow 2 (Nat.log2 0 - 52) = 1 := rfl
  have hnum : num < den := by omega
  rw [hone, Nat.mul_one, Nat.mul_one, Nat.mod_eq_of_lt hnum, hzero, if_neg (by omega)]

end Number

/-- What is chosen passes the test. -/
theorem choose_passes {α : Type} (test : α → Bool) {preferFirst : Bool} {first second a : α}
    (h : choose? test preferFirst first second = some a) : test a = true := by
  unfold choose? at h
  cases hfirst : test first with
  | true =>
      cases hsecond : test second with
      | true =>
          rw [hfirst, hsecond] at h
          obtain rfl := Option.some.inj h
          cases preferFirst with
          | true => exact hfirst
          | false => exact hsecond
      | false =>
          rw [hfirst, hsecond] at h
          obtain rfl := Option.some.inj h
          exact hfirst
  | false =>
      cases hsecond : test second with
      | true =>
          rw [hfirst, hsecond] at h
          obtain rfl := Option.some.inj h
          exact hsecond
      | false =>
          rw [hfirst, hsecond] at h
          cases h

namespace Decimal

/-! ## Decimals of the same value -/

theorem units_den_pos (d : Decimal) : 0 < d.unitsDen := Nat.pow_pos (by decide : 0 < 10)

/-- The decimals have the same value. -/
def Same (d e : Decimal) : Prop := d.unitsNum * e.unitsDen = e.unitsNum * d.unitsDen

theorem round_eq_of_same {d e : Decimal} (h : d.Same e) : d.round = e.round :=
  Number.round_ratio_congr d.units_den_pos e.units_den_pos h

/-- Zeros at the end of a coefficient are worth as much in the power of ten. -/
theorem same_shift (coefficient places : Nat) (exponent : Int) :
    Same ⟨coefficient * 10 ^ places, exponent⟩ ⟨coefficient, exponent + places⟩ := by
  have hpower : 10 ^ places * (10 ^ exponent.toNat * 10 ^ (-(exponent + places)).toNat) =
      10 ^ (exponent + places).toNat * 10 ^ (-exponent).toNat := by
    rw [← Nat.pow_add, ← Nat.pow_add, ← Nat.pow_add]
    congr 1
    omega
  simp only [Same, unitsNum, unitsDen, Nat.pow_eq]
  calc coefficient * 10 ^ places * 10 ^ exponent.toNat * Number.unitsPerOne *
        10 ^ (-(exponent + places)).toNat
      = coefficient * Number.unitsPerOne *
          (10 ^ places * (10 ^ exponent.toNat * 10 ^ (-(exponent + places)).toNat)) := by
        ring
    _ = coefficient * 10 ^ (exponent + places).toNat * Number.unitsPerOne *
          10 ^ (-exponent).toNat := by
        rw [hpower]
        ring

/-! ## The shortest decimal -/

theorem neighbour_round {tie : Tie} {units : Nat} {exponent : Int} {d : Decimal}
    (h : neighbour? tie units exponent = some d) : d.round = units := by
  unfold neighbour? at h
  exact of_decide_eq_true (choose_passes (fun d : Decimal => decide (d.round = units)) h)

theorem search_round {tie : Tie} {units count : Nat} {exponent : Int} {d : Decimal}
    (h : search tie units count exponent = some d) : d.round = units := by
  induction count generalizing exponent with
  | zero => cases h
  | succ count ih =>
      rw [search, Option.or_eq_some_iff] at h
      rcases h with h | ⟨-, h⟩
      · exact neighbour_round h
      · exact ih h

/-- The exact expansion of a count that fits reads back. -/
theorem exact_round {units : Nat} (h : Number.Fits units) : (exact units).round = units := by
  have hnum : (-1074 : Int).toNat = 0 := rfl
  have hden : (-(-1074) : Int).toNat = 1074 := rfl
  rw [round, unitsNum, unitsDen, exact, Number.unitsPerOne, hnum, hden]
  generalize 1074 = p
  have hten : units * Nat.pow 5 p * Nat.pow 10 0 * Nat.pow 2 p = units * Nat.pow 10 p := by
    simp only [Nat.pow_eq, Nat.pow_zero, Nat.mul_one]
    rw [Nat.mul_assoc, ← Nat.mul_pow]
  rw [hten]
  exact Number.round_ratio_self h (Nat.pow_pos (by decide))

theorem trim_round (count : Nat) (d : Decimal) : (d.trim count).round = d.round := by
  induction count generalizing d with
  | zero => rfl
  | succ count ih =>
      rw [trim]
      split
      · rename_i hzero
        rw [ih]
        obtain ⟨coefficient, exponent⟩ := d
        have hten : coefficient / 10 * 10 ^ 1 = coefficient := by
          have := hzero.2
          dsimp only at this
          omega
        have hsame := same_shift (coefficient / 10) 1 exponent
        rw [hten] at hsame
        exact (round_eq_of_same hsame).symm
      · rfl

/-- The shortest decimal of a count that fits reads back. -/
theorem round_shortest {units : Nat} (h : Number.Fits units) (tie : Tie) :
    (shortest tie units).round = units := by
  rw [shortest, trimZeros, trim_round]
  cases hfound : search tie units 17 (leading units) with
  | none => exact exact_round h
  | some d => exact search_round hfound

/-! ## The number of a decimal -/

/-- A decimal whose power of ten shows it to be beyond the finite numbers is rounded so. -/
theorem round_huge {d : Decimal} (h : d.isHuge = true) : Number.unitsLimit ≤ d.round := by
  obtain ⟨hne, hexponent⟩ : d.coefficient ≠ 0 ∧ 400 < d.exponent := of_decide_eq_true h
  have hden : d.unitsDen = 1 := by
    have hzero : (-d.exponent).toNat = 0 := by omega
    rw [unitsDen, hzero, Nat.pow_eq, Nat.pow_zero]
  have hnum : 2 ^ 2098 ≤ d.unitsNum := by
    have hpower : 2 ^ 1024 ≤ 10 ^ d.exponent.toNat := by
      calc 2 ^ 1024 ≤ 2 ^ (3 * d.exponent.toNat) := Nat.pow_le_pow_right (by decide) (by omega)
        _ = 8 ^ d.exponent.toNat := by rw [Nat.pow_mul]
        _ ≤ 10 ^ d.exponent.toNat := Nat.pow_le_pow_left (by decide) _
    have hsplit : 2 ^ 2098 = 1 * 2 ^ 1024 * 2 ^ 1074 := by rw [Nat.one_mul, ← Nat.pow_add]
    rw [hsplit, unitsNum, Number.unitsPerOne]
    exact Nat.mul_le_mul_right _ (Nat.mul_le_mul (Nat.pos_of_ne_zero hne) hpower)
  have hquotient : d.unitsNum / d.unitsDen = d.unitsNum := by rw [hden, Nat.div_one]
  have hpos : d.unitsNum ≠ 0 := Nat.ne_of_gt (Nat.lt_of_lt_of_le (Nat.two_pow_pos _) hnum)
  have hround := Number.two_pow_log_le_round (hquotient ▸ hpos)
  rw [hquotient] at hround
  refine Nat.le_trans ?_ hround
  exact Nat.pow_le_pow_right (by decide) ((Nat.le_log2 hpos).2 hnum)

/-- A decimal that its power of ten shows to be below half a unit is rounded to none. -/
theorem round_tiny {d : Decimal} (h : d.isTiny = true) : d.round = 0 := by
  refine Number.round_ratio_tiny ?_ d.units_den_pos
  rcases (of_decide_eq_true h : d.coefficient = 0 ∨ _) with hzero | hexponent
  · rw [unitsNum, hzero]
    simp
  · have hnum : d.unitsNum = d.coefficient * 2 ^ 1074 := by
      have hzero : d.exponent.toNat = 0 := by omega
      rw [unitsNum, hzero, Nat.pow_eq, Nat.pow_zero, Nat.mul_one, Number.unitsPerOne,
        Nat.pow_eq]
    have hbits : d.coefficient < 2 ^ (d.coefficient.log2 + 1) := Nat.lt_log2_self
    generalize d.coefficient.log2 = bits at hexponent hbits
    rw [hnum, unitsDen, Nat.pow_eq]
    calc 2 * (d.coefficient * 2 ^ 1074) ≤ 2 * (2 ^ (bits + 1) * 2 ^ 1074) :=
          Nat.mul_le_mul_left _ (Nat.mul_le_mul_right _ (Nat.le_of_lt hbits))
      _ = 2 ^ (1 + (bits + 1 + 1074)) := by
          rw [← Nat.pow_add, Nat.pow_add 2 1, Nat.pow_one]
      _ ≤ 2 ^ (3 * (bits + 402)) := Nat.pow_le_pow_right (by decide) (by omega)
      _ = 8 ^ (bits + 402) := by rw [Nat.pow_mul]
      _ ≤ 10 ^ (bits + 402) := Nat.pow_le_pow_left (by decide) _
      _ ≤ 10 ^ (-d.exponent).toNat := Nat.pow_le_pow_right (by decide) (by omega)

/-- A decimal that rounds to the units of a finite number denotes this number. -/
theorem to_number_of_round {d : Decimal} {m : Number.Magnitude} (h : d.round = m.units)
    (negative : Bool) : d.toNumber negative = .finite negative m := by
  have hlimit : Number.roundRatio d.unitsNum d.unitsDen < Number.unitsLimit := by
    have hround : Number.roundRatio d.unitsNum d.unitsDen = m.units := h
    rw [hround]
    exact m.lt_limit
  have hhuge : ¬ d.isHuge = true := fun hhuge =>
    Nat.not_lt.2 (round_huge hhuge) hlimit
  rw [toNumber, if_neg hhuge]
  by_cases htiny : d.isTiny = true
  · rw [if_pos htiny, Number.zero]
    refine congrArg _ (Number.Magnitude.ext_units ?_)
    rw [← h, round_tiny htiny]
    rfl
  · rw [if_neg htiny, Number.ofUnits, dif_pos hlimit]
    exact congrArg _ (Number.Magnitude.ext_units h)

end Decimal

/-! ## Written numbers -/

/-- The shortest decimal of a size, or zero. -/
theorem round_written (m : Number.Magnitude) (tie : Decimal.Tie) :
    (if m.units = 0 then (⟨0, 0⟩ : Decimal) else Decimal.shortest tie m.units).round =
      m.units := by
  split
  · rename_i hzero
    rw [hzero]
    exact Decimal.round_tiny (by decide)
  · exact Decimal.round_shortest m.fits tie

theorem written_nonzero (m : Number.Magnitude) (tie : Decimal.Tie) :
    (if m.units = 0 then (⟨0, 0⟩ : Decimal) else Decimal.shortest tie m.units).coefficient ≠ 0 ∨
      (if m.units = 0 then (⟨0, 0⟩ : Decimal) else
        Decimal.shortest tie m.units).exponent ≤ 0 := by
  by_cases hzero : m.units = 0
  · rw [if_pos hzero]
    exact .inr (Int.le_refl _)
  · left
    intro hcoefficient
    have hround := round_written m tie
    rw [Decimal.round_tiny (by rw [Decimal.isTiny, hcoefficient]; rfl)] at hround
    exact hzero hround.symm

end RobotBench
