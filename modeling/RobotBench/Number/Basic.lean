/-!
# Binary64 numbers as counts of the least positive value

Every finite binary64 number is a whole multiple of `2 ^ (-1074)`, so a sign and a count
of these units describe it exactly: comparison is comparison of integers, and a sum is an
integer sum that is rounded once. `roundRatio` rounds a quotient of naturals to the
nearest count with at most 53 significant bits, ties to the even neighbour, and
`fits_roundRatio` says that its result is such a count.
-/

namespace RobotBench

namespace Number

/-- Units in the number one. -/
def unitsPerOne : Nat := Nat.pow 2 1074

/-- The first count of units that is too large for a finite number. -/
def unitsLimit : Nat := Nat.pow 2 2098

/-- Some count of units is finite. -/
theorem unitsLimit_pos : 0 < unitsLimit := by decide +kernel

/-- A count has at most 53 significant bits. -/
def Fits (units : Nat) : Prop := Nat.pow 2 (units.log2 - 52) ∣ units

instance (units : Nat) : Decidable (Fits units) :=
  inferInstanceAs (Decidable (Nat.pow 2 (units.log2 - 52) ∣ units))

/-- The nearest count with at most 53 significant bits to `num / den`; a tie goes to the
count whose last kept bit is zero. -/
def roundRatio (num den : Nat) : Nat :=
  let dropped := (num / den).log2 - 52
  let step := den * Nat.pow 2 dropped
  let quotient := num / step
  let twice := 2 * (num % step)
  let up := step < twice ∨ (twice = step ∧ quotient % 2 = 1)
  (if up then quotient + 1 else quotient) * Nat.pow 2 dropped

/-- A quotient cut to 53 bits is below `2 ^ 53`. -/
theorem quotient_lt (num den : Nat) :
    num / (den * Nat.pow 2 ((num / den).log2 - 52)) < Nat.pow 2 53 := by
  rw [← Nat.div_div_eq_div_mul, Nat.pow_eq, Nat.pow_eq]
  generalize num / den = n
  rw [Nat.div_lt_iff_lt_mul (Nat.two_pow_pos _), ← Nat.pow_add]
  exact Nat.lt_of_lt_of_le Nat.lt_log2_self
    (Nat.pow_le_pow_right (by decide) (by omega))

/-- A multiple of `2 ^ k` by less than `2 ^ 53` has at most 53 bits above the last `k`. -/
theorem log2_mul_two_pow_le {q k : Nat} (hq : q < Nat.pow 2 53) :
    (q * Nat.pow 2 k).log2 ≤ 52 + k := by
  simp only [Nat.pow_eq] at hq ⊢
  by_cases h0 : q * Nat.pow 2 k = 0
  · rw [Nat.pow_eq] at h0
    simp [h0]
  · rw [Nat.pow_eq] at h0
    rw [← Nat.lt_add_one_iff, Nat.log2_lt h0, Nat.add_right_comm, Nat.pow_add]
    exact Nat.mul_lt_mul_of_pos_right hq (Nat.two_pow_pos _)

/-- A multiple of `2 ^ k` by at most `2 ^ 53` has at most 53 significant bits. -/
theorem fits_mul_two_pow {q k : Nat} (hq : q ≤ Nat.pow 2 53) :
    Fits (q * Nat.pow 2 k) := by
  rcases Nat.lt_or_eq_of_le hq with h | h
  · refine Nat.dvd_trans (Nat.pow_dvd_pow 2 ?_) (Nat.dvd_mul_left _ _)
    have := log2_mul_two_pow_le (k := k) h
    omega
  · unfold Fits
    simp only [Nat.pow_eq] at h ⊢
    rw [h, ← Nat.pow_add, Nat.log2_two_pow]
    exact Nat.pow_dvd_pow 2 (by omega)

/-- Rounding yields a count with at most 53 significant bits. -/
theorem fits_roundRatio (num den : Nat) : Fits (roundRatio num den) := by
  have h := quotient_lt num den
  unfold roundRatio
  apply fits_mul_two_pow
  split <;> omega

/-- The size of a finite number: how many units of `2 ^ (-1074)` it has. -/
structure Magnitude where
  units : Nat
  fits : Fits units
  lt_limit : units < unitsLimit
  deriving DecidableEq

/-- Two sizes with as many units are equal. -/
theorem Magnitude.ext_units {a b : Magnitude} (h : a.units = b.units) : a = b := by
  cases a; cases b; cases h; rfl

end Number

/-- A binary64 number. Zero has a sign, and there is one value that is no number. -/
inductive Number where
  | nan
  | infinite (negative : Bool)
  | finite (negative : Bool) (magnitude : Number.Magnitude)
  deriving DecidableEq

namespace Number

/-- The zero magnitude. -/
def Magnitude.zero : Magnitude := ⟨0, by decide, unitsLimit_pos⟩

/-- The number zero with the given sign. -/
def zero (negative : Bool) : Number := .finite negative .zero

/-- The number with the given sign nearest to `num / den` units; beyond the finite range
it is infinite. -/
def ofUnits (negative : Bool) (num den : Nat) : Number :=
  if h : roundRatio num den < unitsLimit then
    .finite negative ⟨roundRatio num den, fits_roundRatio num den, h⟩
  else .infinite negative

/-- The number nearest to a natural number. -/
def ofNat (n : Nat) : Number := ofUnits false (n * unitsPerOne) 1

/-- The number nearest to an integer. -/
def ofInt (i : Int) : Number := ofUnits (decide (i < 0)) (i.natAbs * unitsPerOne) 1

instance (n : Nat) : OfNat Number n := ⟨ofNat n⟩

instance : Inhabited Number := ⟨zero false⟩

/-- Where a number stands on the line, in units; the infinities stand just outside the
finite range and what is no number stands nowhere. -/
def place : Number → Option Int
  | .nan => none
  | .infinite negative => some (if negative then -(unitsLimit : Int) else unitsLimit)
  | .finite negative m => some (if negative then -(m.units : Int) else m.units)

/-- Both numbers stand on the line and their places are related by `r`. -/
def related (r : Int → Int → Bool) (a b : Number) : Bool :=
  match a.place, b.place with
  | some x, some y => r x y
  | _, _ => false

/-- Equality of places: the two zeros are equal, and what is no number equals nothing. -/
def equals : Number → Number → Bool := related fun x y => x == y

/-- The order of places. -/
def below : Number → Number → Bool := related fun x y => decide (x < y)

/-- The order of places, equality included. -/
def atMost : Number → Number → Bool := related fun x y => decide (x ≤ y)

/-- The number with the other sign. -/
def negate : Number → Number
  | .nan => .nan
  | .infinite negative => .infinite !negative
  | .finite negative m => .finite (!negative) m

/-- The sum of two numbers, rounded once. Opposite infinities have no sum, and an exact
zero is negative only as the sum of two negative zeros. -/
def add : Number → Number → Number
  | .nan, _ => .nan
  | _, .nan => .nan
  | .infinite a, .infinite b => if a = b then .infinite a else .nan
  | .infinite a, .finite _ _ => .infinite a
  | .finite _ _, .infinite b => .infinite b
  | .finite a m, .finite b n =>
    if a = b then ofUnits a (m.units + n.units) 1
    else if m.units = n.units then zero false
    else if n.units < m.units then ofUnits a (m.units - n.units) 1
    else ofUnits b (n.units - m.units) 1

/-- The difference of two numbers, rounded once. -/
def sub (a b : Number) : Number := a.add b.negate

/-- Neither an infinity nor the value that is no number. -/
def isFinite : Number → Bool
  | .finite _ _ => true
  | _ => false

/-- The natural number that a number is, if it is one; both zeros are. -/
def toNat? : Number → Option Nat
  | .finite negative m =>
    if (negative ∧ m.units ≠ 0) ∨ m.units % unitsPerOne ≠ 0 then none
    else some (m.units / unitsPerOne)
  | _ => none

/-- The least 64-bit integer. -/
def minWord : Int := -9223372036854775808

/-- The greatest 64-bit integer. -/
def maxWord : Int := 9223372036854775807

/-- The number cut toward zero and held inside the 64-bit integers; zero for what is no
number. -/
def truncate : Number → Int
  | .nan => 0
  | .infinite negative => if negative then minWord else maxWord
  | .finite negative m =>
    let whole : Int := (m.units / unitsPerOne : Nat)
    if negative then max minWord (-whole) else min maxWord whole

end Number

end RobotBench
