import Mathlib.Data.List.Basic
import RobotBench.Robot.Generator

/-!
# Draws are seen in the generator

A draw advances the state by an odd stride, so `UInt64.size` draws in a row visit every state
once and only then come back to the first. A draw below three is repeated only while the word
is zero, which is the case at fewer states than that. So it never leaves the generator as it
was: `index_three_ne`.
-/

namespace RobotBench.Generator

/-- How far a draw advances the state. -/
def stride : UInt64 := 0x2d358dccaa6c78a5

/-- What undoes a multiplication by the stride. -/
def unstride : UInt64 := 0x32e25c49d2beaf2d

theorem stride_mul_unstride : stride * unstride = 1 := by decide

/-- The generator after a number of draws. -/
def ahead (draws : Nat) (g : Generator) : Generator :=
  ⟨g.state + UInt64.ofNat draws * stride⟩

variable (g : Generator)

theorem ahead_zero : g.ahead 0 = g := by
  have hzero : UInt64.ofNat 0 * stride = 0 := rfl
  rw [ahead, hzero, UInt64.add_zero]

theorem ahead_succ (draws : Nat) : g.ahead (draws + 1) = g.next.2.ahead draws := by
  have hstate : g.state + UInt64.ofNat (draws + 1) * stride =
      g.state + stride + UInt64.ofNat draws * stride := by
    rw [UInt64.ofNat_add]
    grind
  exact congrArg mk hstate

/-- Every state is some number of draws ahead, less than there are states. -/
theorem exists_ahead (other : Generator) :
    ∃ draws, draws < UInt64.size ∧ g.ahead draws = other := by
  refine ⟨((other.state - g.state) * unstride).toNat, UInt64.toNat_lt _, ?_⟩
  have hback : (other.state - g.state) * unstride * stride = other.state - g.state := by
    rw [UInt64.mul_assoc, UInt64.mul_comm unstride, stride_mul_unstride, UInt64.mul_one]
  rw [ahead, UInt64.ofNat_toNat, hback]
  have hstate : g.state + (other.state - g.state) = other.state := by grind
  rw [hstate]

/-- Only after as many draws as there are states is the generator as it was. -/
theorem ahead_eq_self {draws : Nat} (h : g.ahead draws = g) : UInt64.size ∣ draws := by
  have hstate : g.state + UInt64.ofNat draws * stride = g.state := congrArg state h
  have hzero : UInt64.ofNat draws * stride = 0 := by grind
  have hdraws : UInt64.ofNat draws = 0 := by
    calc UInt64.ofNat draws = UInt64.ofNat draws * stride * unstride := by
          rw [UInt64.mul_assoc, stride_mul_unstride, UInt64.mul_one]
      _ = 0 := by rw [hzero, UInt64.zero_mul]
  have hrest : (UInt64.ofNat draws).toNat = 0 := congrArg UInt64.toNat hdraws
  rw [UInt64.toNat_ofNat'] at hrest
  exact Nat.dvd_of_mod_eq_zero hrest

/-- Drawing until a word is accepted passes over words that are not. -/
theorem draw_until_ahead (accept : UInt64 → Bool) (tries : Nat) :
    ∃ rejected, (drawUntil accept tries g).2 = g.ahead (rejected + 1) ∧
      ∀ draws < rejected, accept (g.ahead draws).next.1 = false := by
  induction tries generalizing g with
  | zero =>
      refine ⟨0, ?_, fun draws hdraws => absurd hdraws (Nat.not_lt_zero _)⟩
      rw [ahead_succ, ahead_zero]
      rfl
  | succ tries ih =>
      cases haccept : accept g.next.1 with
      | true =>
          refine ⟨0, ?_, fun draws hdraws => absurd hdraws (Nat.not_lt_zero _)⟩
          rw [ahead_succ, ahead_zero]
          simp only [drawUntil, haccept, if_true]
      | false =>
          obtain ⟨rejected, hlast, hrejected⟩ := ih g.next.2
          refine ⟨rejected + 1, ?_, fun draws hdraws => ?_⟩
          · rw [ahead_succ, ← hlast]
            simp [drawUntil, haccept]
          · cases draws with
            | zero => rwa [ahead_zero]
            | succ draws =>
                rw [ahead_succ]
                exact hrejected draws (Nat.lt_of_succ_lt_succ hdraws)

/-- The word favours no result of a draw below the bound. -/
def isFair (bound : Nat) (w : UInt64) : Bool :=
  (UInt64.size - bound) % bound ≤ w.toNat * bound % UInt64.size

theorem index_generator (bound : Nat) :
    (g.index bound).2 = (drawUntil (isFair bound) UInt64.size g).2 := by
  unfold index
  simp only
  rfl

/-- A draw below three never leaves the generator as it was. -/
theorem index_three_ne : (g.index 3).2 ≠ g := by
  intro hsame
  rw [index_generator] at hsame
  obtain ⟨rejected, hlast, hrejected⟩ := g.draw_until_ahead (isFair 3) UInt64.size
  rw [hlast] at hsame
  have hround : UInt64.size ∣ rejected + 1 := g.ahead_eq_self hsame
  have hmany : UInt64.size ≤ rejected + 1 := Nat.le_of_dvd (Nat.succ_pos _) hround
  -- so all states but one are rejected, and two are not
  have hlate (other : Generator) (h : isFair 3 other.next.1 = true) :
      ∃ draws, draws < UInt64.size ∧ rejected ≤ draws ∧ g.ahead draws = other := by
    obtain ⟨draws, hdraws, rfl⟩ := g.exists_ahead other
    refine ⟨draws, hdraws, Nat.le_of_not_lt fun hless => ?_, rfl⟩
    rw [hrejected draws hless] at h
    cases h
  obtain ⟨first, hfirst, hafter, hzero⟩ := hlate ⟨0⟩ (by decide)
  obtain ⟨second, hsecond, hafter', hone⟩ := hlate ⟨1⟩ (by decide)
  have heq : first = second := by omega
  rw [heq, hone] at hzero
  cases hzero

end RobotBench.Generator
